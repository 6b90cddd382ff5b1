import CloudAudit.Number.Binary64
import Mathlib.Order.Monotone.Basic

set_option autoImplicit false

/- Rounding to doubles. Ranks grow with the magnitudes they stand for, so the nearest rank
is one of the two ranks around a number, and rounding keeps the order of numbers. -/
namespace CloudAudit.Binary64

-- Powers are core's, also where an algebra library is imported.
attribute [local instance (high)] instPowNat

/-- Up to the least normal doubles a rank is its own magnitude. -/
theorem unitsOfRank_of_lt {r : Nat} (small : r < 2 ^ (52 : Nat)) : unitsOfRank r = r := if_pos small

@[simp] theorem unitsOfRank_zero : unitsOfRank 0 = 0 := unitsOfRank_of_lt (by decide)

/-- Between two powers of two the doubles are evenly spaced, both ends included. -/
theorem unitsOfRank_binade (s j : Nat) (inside : j ≤ 2 ^ (52 : Nat)) :
    unitsOfRank ((s + 1) * 2 ^ (52 : Nat) + j) = (2 ^ (52 : Nat) + j) * 2 ^ s := by
  have normal : ¬(s + 1) * 2 ^ (52 : Nat) + j < 2 ^ (52 : Nat) := by omega
  rw [unitsOfRank, if_neg normal]
  rcases Nat.lt_or_eq_of_le inside with below | rfl
  · have place : ((s + 1) * 2 ^ (52 : Nat) + j) % 2 ^ (52 : Nat) = j := by omega
    have binade : ((s + 1) * 2 ^ (52 : Nat) + j) / 2 ^ (52 : Nat) = s + 1 := by omega
    rw [place, binade, Nat.add_sub_cancel]
  · have place : ((s + 1) * 2 ^ (52 : Nat) + 2 ^ (52 : Nat)) % 2 ^ (52 : Nat) = 0 := by omega
    have binade : ((s + 1) * 2 ^ (52 : Nat) + 2 ^ (52 : Nat)) / 2 ^ (52 : Nat) = s + 2 := by omega
    rw [place, binade, show s + 2 - 1 = s + 1 from rfl, Nat.pow_succ]
    omega

/-- Every rank from the least normal double on lies in a binade. -/
theorem exists_binade {r : Nat} (normal : 2 ^ (52 : Nat) ≤ r) :
    ∃ s j, j < 2 ^ (52 : Nat) ∧ r = (s + 1) * 2 ^ (52 : Nat) + j :=
  ⟨r / 2 ^ (52 : Nat) - 1, r % 2 ^ (52 : Nat), by omega, by omega⟩

theorem unitsOfRank_lt_succ (r : Nat) : unitsOfRank r < unitsOfRank (r + 1) := by
  rcases Nat.lt_or_ge r (2 ^ (52 : Nat)) with small | normal
  · have next : unitsOfRank (r + 1) = r + 1 := by
      rcases Nat.lt_or_ge (r + 1) (2 ^ (52 : Nat)) with below | least
      · exact unitsOfRank_of_lt below
      · obtain rfl : r = 2 ^ (52 : Nat) - 1 := by omega
        decide
    rw [unitsOfRank_of_lt small, next]
    exact Nat.lt_succ_self r
  · obtain ⟨s, j, inside, rfl⟩ := exists_binade normal
    rw [unitsOfRank_binade s j inside.le, Nat.add_assoc, unitsOfRank_binade s (j + 1) inside]
    exact Nat.mul_lt_mul_of_pos_right (by omega) (Nat.two_pow_pos s)

theorem unitsOfRank_strictMono : StrictMono unitsOfRank :=
  strictMono_nat_of_lt_succ unitsOfRank_lt_succ

/-- The gap after a normal double is at most a `2 ^ 52`-th of it. -/
theorem unitsOfRank_gap {r : Nat} (normal : 2 ^ (52 : Nat) ≤ r) :
    unitsOfRank (r + 1) * 2 ^ (52 : Nat) ≤ unitsOfRank r * (2 ^ (52 : Nat) + 1) := by
  obtain ⟨s, j, inside, rfl⟩ := exists_binade normal
  rw [unitsOfRank_binade s j inside.le, Nat.add_assoc, unitsOfRank_binade s (j + 1) inside,
    Nat.mul_right_comm, Nat.mul_right_comm (2 ^ (52 : Nat) + j)]
  exact Nat.mul_le_mul_right _ (by omega)

/-- The nearer one of a rank and the next, the even one where they are equally near. -/
def nearer (r scaled den : Nat) : Nat :=
  if 2 * scaled < (unitsOfRank r + unitsOfRank (r + 1)) * den then r
  else if (unitsOfRank r + unitsOfRank (r + 1)) * den < 2 * scaled then r + 1
  else if r % 2 = 0 then r
  else r + 1

/-- The rank `r` is the last one whose magnitude is at most `scaled / den`. -/
structure Below (r scaled den : Nat) : Prop where
  lower : unitsOfRank r * den ≤ scaled
  upper : scaled < unitsOfRank (r + 1) * den

/-- A quotient is rounded to the nearer one of two evenly spaced neighbours. -/
theorem nearer_of_quotient {r scaled den q p : Nat} (positive : 0 < den * p)
    (quotient : scaled / (den * p) = q) (here : unitsOfRank r = q * p)
    (next : unitsOfRank (r + 1) = (q + 1) * p) (parity : r % 2 = q % 2) :
    Below r scaled den ∧ r + (roundHalfEven scaled (den * p) - q) = nearer r scaled den := by
  have division := Nat.div_add_mod scaled (den * p)
  have rest := Nat.mod_lt scaled positive
  rw [quotient] at division
  have whole : unitsOfRank r * den = den * p * q := by rw [here]; ac_rfl
  have more : unitsOfRank (r + 1) * den = den * p * q + den * p := by
    rw [next, Nat.add_mul, Nat.one_mul, Nat.add_mul, Nat.mul_comm p den]
    congr 1
    ac_rfl
  refine ⟨⟨by omega, by omega⟩, ?_⟩
  simp only [roundHalfEven, nearer, quotient, Nat.add_mul, whole, more, parity]
  split_ifs <;> omega

theorem le_roundHalfEven (num den : Nat) : num / den ≤ roundHalfEven num den := by
  simp only [roundHalfEven]
  split_ifs <;> omega

/-- Below the second binade the quotient itself is the rank. -/
theorem nearer_of_small {scaled den : Nat} (positive : 0 < den)
    (small : scaled / den < 2 ^ (53 : Nat)) :
    Below (scaled / den) scaled den ∧
      roundHalfEven scaled den = nearer (scaled / den) scaled den := by
  have self : ∀ r, r ≤ 2 ^ (53 : Nat) → unitsOfRank r = r := by
    intro r bound
    rcases Nat.lt_or_ge r (2 ^ (52 : Nat)) with subnormal | normal
    · exact unitsOfRank_of_lt subnormal
    · obtain ⟨j, rfl⟩ := Nat.exists_eq_add_of_le normal
      have first := unitsOfRank_binade 0 j (by omega)
      rwa [Nat.zero_add, Nat.one_mul, Nat.pow_zero, Nat.mul_one] at first
  have near := @nearer_of_quotient (scaled / den) scaled den (scaled / den) 1 (by omega)
    (by rw [Nat.mul_one]) (by rw [self _ (by omega), Nat.mul_one])
    (by rw [self _ (by omega), Nat.mul_one]) rfl
  have least := le_roundHalfEven scaled den
  refine ⟨near.1, ?_⟩
  rw [← near.2, Nat.mul_one]
  omega

/-- Cut to 53 bits, a number starts with a one. -/
theorem leading_bits {whole shift : Nat} (lower : 2 ^ (52 + shift) ≤ whole)
    (upper : whole < 2 ^ (53 + shift)) :
    2 ^ (52 : Nat) ≤ whole / 2 ^ shift ∧ whole / 2 ^ shift < 2 ^ (53 : Nat) := by
  rw [Nat.pow_add] at lower upper
  exact ⟨(Nat.le_div_iff_mul_le (Nat.two_pow_pos shift)).mpr lower,
    (Nat.div_lt_iff_lt_mul (Nat.two_pow_pos shift)).mpr upper⟩

/-- From the second binade on the leading 53 bits give the place in the binade. -/
theorem nearer_of_large {scaled den shift : Nat} (positive : 0 < den)
    (lower : 2 ^ (52 + shift) ≤ scaled / den) (upper : scaled / den < 2 ^ (53 + shift)) :
    ∃ r, Below r scaled den ∧
      (shift + 1) * 2 ^ (52 : Nat) + (roundHalfEven scaled (den * 2 ^ shift) - 2 ^ (52 : Nat)) =
        nearer r scaled den := by
  have bits := leading_bits lower upper
  rw [Nat.div_div_eq_div_mul] at bits
  have kept := le_roundHalfEven scaled (den * 2 ^ shift)
  generalize quotient : scaled / (den * 2 ^ shift) = q at bits kept
  obtain ⟨j, rfl⟩ := Nat.exists_eq_add_of_le bits.1
  have next : unitsOfRank ((shift + 1) * 2 ^ (52 : Nat) + j + 1) =
      (2 ^ (52 : Nat) + j + 1) * 2 ^ shift := by
    rw [Nat.add_assoc, Nat.add_assoc, unitsOfRank_binade shift (j + 1) (by omega)]
  have near := nearer_of_quotient (Nat.mul_pos positive (Nat.two_pow_pos shift)) quotient
    (unitsOfRank_binade shift j (by omega)) next (by omega)
  refine ⟨_, near.1, ?_⟩
  rw [← near.2]
  omega

/-- Rounding takes one of the two ranks around a number. -/
theorem nearestRank_eq (num : Nat) {den : Nat} (positive : 0 < den) :
    ∃ r, Below r (num * 2 ^ (1074 : Nat)) den ∧
      nearestRank num den = nearer r (num * 2 ^ (1074 : Nat)) den := by
  simp only [nearestRank]
  generalize num * 2 ^ (1074 : Nat) = scaled
  split
  · next small => exact ⟨_, nearer_of_small positive small⟩
  · next large =>
    have filled : scaled / den ≠ 0 := by omega
    have wide : 52 ≤ (scaled / den).log2 := by
      refine (Nat.le_log2 filled).mpr (Nat.le_trans ?_ (Nat.le_of_not_lt large))
      decide
    refine nearer_of_large positive ?_ ?_
    · rw [Nat.add_sub_cancel' wide]
      exact Nat.log2_self_le filled
    · rw [show 53 + ((scaled / den).log2 - 52) = (scaled / den).log2 + 1 by omega]
      exact Nat.lt_log2_self

/-- Any other double lies on the far side of one of the two. -/
theorem Below.side {r scaled den : Nat} (below : Below r scaled den) (other : Nat) :
    (other < r ∧ unitsOfRank other * den < unitsOfRank r * den) ∨ other = r ∨ other = r + 1 ∨
      (r + 1 < other ∧ unitsOfRank (r + 1) * den < unitsOfRank other * den) := by
  have positive : 0 < den := by
    refine Nat.pos_of_ne_zero fun zero => ?_
    have upper := below.upper
    rw [zero, Nat.mul_zero] at upper
    exact Nat.not_lt_zero _ upper
  rcases Nat.lt_trichotomy other r with before | same | after
  · exact .inl ⟨before, Nat.mul_lt_mul_of_pos_right (unitsOfRank_strictMono before) positive⟩
  · exact .inr (.inl same)
  · rcases Nat.lt_or_eq_of_le (Nat.succ_le_of_lt after) with later | same
    · exact .inr (.inr (.inr ⟨later,
        Nat.mul_lt_mul_of_pos_right (unitsOfRank_strictMono later) positive⟩))
    · exact .inr (.inr (.inl same.symm))

/-- How far a magnitude is from `scaled / den`, in parts of `den`. -/
def distance (units scaled den : Nat) : Nat := ((units * den : Nat) - (scaled : Int)).natAbs

section

variable {r scaled den : Nat}

theorem nearer_closest (below : Below r scaled den) (other : Nat) :
    distance (unitsOfRank (nearer r scaled den)) scaled den ≤
      distance (unitsOfRank other) scaled den := by
  have side := below.side other
  obtain ⟨lower, upper⟩ := below
  simp only [distance, nearer, Nat.add_mul]
  rcases side with before | rfl | rfl | after
  all_goals split_ifs <;> omega

/-- Of two doubles that are equally near the even one is taken. -/
theorem nearer_even (below : Below r scaled den) {other : Nat}
    (apart : other ≠ nearer r scaled den)
    (tie : distance (unitsOfRank other) scaled den =
      distance (unitsOfRank (nearer r scaled den)) scaled den) : nearer r scaled den % 2 = 0 := by
  have side := below.side other
  obtain ⟨lower, upper⟩ := below
  revert apart tie
  simp only [distance, nearer, Nat.add_mul]
  rcases side with before | rfl | rfl | after
  all_goals split_ifs <;> omega

theorem nearer_mono {s more : Nat} (below : Below r scaled den) (above : Below s more den)
    (le : scaled ≤ more) : nearer r scaled den ≤ nearer s more den := by
  have side := above.side r
  have lower := below.lower
  have upper := above.upper
  simp only [nearer, Nat.add_mul]
  rcases side with before | rfl | rfl | after
  all_goals split_ifs <;> omega

/-- What is a double already stays. -/
theorem nearer_exact (below : Below r scaled den) {k : Nat}
    (same : unitsOfRank k * den = scaled) : nearer r scaled den = k := by
  have side := below.side k
  obtain ⟨lower, upper⟩ := below
  simp only [nearer, Nat.add_mul]
  rcases side with before | rfl | rfl | after
  all_goals split_ifs <;> omega

end

/-- One as a multiple of the least positive double. -/
def unitsOfOne : Nat := 2 ^ (1074 : Nat)

theorem unitsOfOne_pos : 0 < unitsOfOne := by decide +kernel

/-- An integer lies between two ranks, and its rank is the nearer one. -/
theorem nearestRank_natural (n : Nat) :
    ∃ r, Below r (n * unitsOfOne) 1 ∧ nearestRank n 1 = nearer r (n * unitsOfOne) 1 := by
  rw [unitsOfOne]
  exact nearestRank_eq n Nat.one_pos

theorem nearestRank_mono {n m : Nat} (le : n ≤ m) : nearestRank n 1 ≤ nearestRank m 1 := by
  obtain ⟨r, below, first⟩ := nearestRank_natural n
  obtain ⟨s, above, second⟩ := nearestRank_natural m
  rw [first, second]
  exact nearer_mono below above (Nat.mul_le_mul_right _ le)

/-- Integers of up to 53 bits are doubles. -/
theorem exists_rank {n : Nat} (small : n ≤ 2 ^ (53 : Nat)) :
    ∃ k, unitsOfRank k = n * unitsOfOne := by
  rcases Nat.eq_zero_or_pos n with rfl | positive
  · exact ⟨0, by rw [Nat.zero_mul, unitsOfRank_zero]⟩
  · have lower := Nat.log2_self_le positive.ne'
    have upper := Nat.lt_log2_self (n := n)
    have short : n.log2 ≤ 53 := by
      by_contra long
      have bound : 2 ^ (54 : Nat) ≤ 2 ^ n.log2 := Nat.pow_le_pow_right (by decide) (by omega)
      omega
    rcases Nat.lt_or_eq_of_le short with inside | last
    · -- The leading one moves up to the place of `2 ^ 52`.
      obtain ⟨k, bits⟩ := Nat.exists_eq_add_of_le (Nat.lt_succ_iff.mp inside)
      have fits : 2 ^ (52 : Nat) ≤ n * 2 ^ k ∧ n * 2 ^ k < 2 ^ (53 : Nat) := by
        rw [show 53 = n.log2 + 1 + k by omega, bits, Nat.pow_add, Nat.pow_add]
        exact ⟨Nat.mul_le_mul_right _ lower,
          Nat.mul_lt_mul_of_pos_right upper (Nat.two_pow_pos k)⟩
      refine ⟨(1074 - k + 1) * 2 ^ (52 : Nat) + (n * 2 ^ k - 2 ^ (52 : Nat)), ?_⟩
      rw [unitsOfRank_binade _ _ (by omega), Nat.add_sub_cancel' fits.1, Nat.mul_assoc,
        ← Nat.pow_add, Nat.add_sub_cancel' (by omega), unitsOfOne]
    · refine ⟨(1075 + 1) * 2 ^ (52 : Nat) + 0, ?_⟩
      obtain rfl : n = 2 ^ (53 : Nat) := by
        rw [last] at lower
        exact Nat.le_antisymm small lower
      rw [unitsOfRank_binade 1075 0 (Nat.zero_le _), unitsOfOne]
      decide +kernel

theorem nearestRank_exact {n : Nat} (small : n ≤ 2 ^ (53 : Nat)) :
    unitsOfRank (nearestRank n 1) = n * unitsOfOne := by
  obtain ⟨k, same⟩ := exists_rank small
  obtain ⟨r, below, nearest⟩ := nearestRank_natural n
  rw [nearest, nearer_exact below (by rw [same, Nat.mul_one]), same]

/-- The nearer one of two normal doubles is at most a `2 ^ 53`-th of the number away. -/
theorem nearer_error {r scaled : Nat} (below : Below r scaled 1) (normal : 2 ^ (52 : Nat) ≤ r) :
    distance (unitsOfRank (nearer r scaled 1)) scaled 1 * 2 ^ (53 : Nat) ≤ scaled := by
  have gap := unitsOfRank_gap normal
  obtain ⟨lower, upper⟩ := below
  have half : 2 * distance (unitsOfRank (nearer r scaled 1)) scaled 1 ≤
      unitsOfRank (r + 1) - unitsOfRank r := by
    simp only [distance, nearer, Nat.mul_one] at lower upper ⊢
    split_ifs <;> omega
  calc
    _ = 2 * distance (unitsOfRank (nearer r scaled 1)) scaled 1 * 2 ^ (52 : Nat) := by
      rw [Nat.pow_succ, Nat.mul_comm (2 ^ (52 : Nat)), ← Nat.mul_assoc, Nat.mul_comm 2]
    _ ≤ (unitsOfRank (r + 1) - unitsOfRank r) * 2 ^ (52 : Nat) := Nat.mul_le_mul_right _ half
    _ ≤ unitsOfRank r := by rw [Nat.sub_mul]; omega
    _ ≤ scaled := by omega

/-- Rounding moves an integer by at most a `2 ^ 53`-th of it. -/
theorem nearestRank_error (n : Nat) :
    distance (unitsOfRank (nearestRank n 1)) (n * unitsOfOne) 1 * 2 ^ (53 : Nat) ≤
      n * unitsOfOne := by
  rcases Nat.eq_zero_or_pos n with rfl | positive
  · rw [nearestRank_exact (Nat.zero_le _), distance]
    simp
  · obtain ⟨r, below, nearest⟩ := nearestRank_natural n
    have large : 2 ^ (52 : Nat) < n * unitsOfOne :=
      Nat.lt_of_lt_of_le (by decide +kernel) (Nat.le_mul_of_pos_left unitsOfOne positive)
    rw [nearest]
    refine nearer_error below (Nat.le_of_not_lt fun early => ?_)
    have bound := unitsOfRank_strictMono.monotone (show r + 1 ≤ 2 ^ (52 : Nat) from early)
    have least : unitsOfRank (2 ^ (52 : Nat)) = 2 ^ (52 : Nat) := by decide
    have upper := below.upper
    omega

/-- Value of a double with its sign, as a multiple of the least positive one. -/
def signedUnits (x : Binary64) : Int := if x.negative then -(x.units : Int) else x.units

theorem signedRank_lt_iff (x y : Binary64) :
    x.signedRank < y.signedRank ↔ x.signedUnits < y.signedUnits := by
  have order := unitsOfRank_strictMono.lt_iff_lt (a := x.rank) (b := y.rank)
  have reverse := unitsOfRank_strictMono.lt_iff_lt (a := y.rank) (b := x.rank)
  have left := unitsOfRank_strictMono.lt_iff_lt (a := 0) (b := x.rank)
  have right := unitsOfRank_strictMono.lt_iff_lt (a := 0) (b := y.rank)
  rw [unitsOfRank_zero] at left right
  simp only [signedRank, signedUnits, units]
  cases x.negative <;> cases y.negative <;> simp only [Bool.false_eq_true, ↓reduceIte] <;> omega

theorem lt_eq (x y : Binary64) : x.lt y = decide (x.signedUnits < y.signedUnits) :=
  decide_eq_decide.mpr (signedRank_lt_iff x y)

theorem le_eq (x y : Binary64) : x.le y = decide (x.signedUnits ≤ y.signedUnits) := by
  have flipped := signedRank_lt_iff y x
  refine decide_eq_decide.mpr ?_
  omega

theorem eqv_eq (x y : Binary64) : x.eqv y = decide (x.signedUnits = y.signedUnits) := by
  have order := signedRank_lt_iff x y
  have flipped := signedRank_lt_iff y x
  rw [eqv, Bool.beq_eq_decide_eq]
  refine decide_eq_decide.mpr ?_
  omega

/-- The integers that a number can hold. -/
def IsWord (n : Int) : Prop := -(2 ^ (63 : Nat)) ≤ n ∧ n < 2 ^ (64 : Nat)

instance (n : Int) : Decidable (IsWord n) := inferInstanceAs (Decidable (_ ∧ _))

/-- The double nearest to an integer; of two that are equally near the one of even rank. -/
structure IsNearest (n : Int) (x : Binary64) : Prop where
  closest : ∀ y : Binary64,
    (x.signedUnits - n * unitsOfOne).natAbs ≤ (y.signedUnits - n * unitsOfOne).natAbs
  even : ∀ y : Binary64, y.signedUnits ≠ x.signedUnits →
    (y.signedUnits - n * unitsOfOne).natAbs = (x.signedUnits - n * unitsOfOne).natAbs →
      x.rank % 2 = 0

theorem ofRank?_eq (negative : Bool) {rank : Nat} (finite : rank < 2047 * 2 ^ (52 : Nat)) :
    ofRank? negative rank = some ⟨negative, rank, finite⟩ := by
  unfold ofRank?
  split
  · rfl
  · contradiction

-- Stated of the function as a whole, so that opening it does not evaluate the quotient.
theorem ofInt_eq_getD : ofInt = fun n : Int =>
    (ofRatio? (n < 0) n.natAbs 1).getD { greatest with negative := n < 0 } := by
  delta ofInt
  funext n
  generalize ofRatio? (n < 0) n.natAbs 1 = nearest
  cases nearest <;> rfl

/-- No integer of 64 bits is beyond the greatest double. -/
theorem ofInt_eq {n : Int} (word : IsWord n) :
    ∃ x : Binary64, ofInt n = x ∧ x.negative = decide (n < 0) ∧
      x.rank = nearestRank n.natAbs 1 := by
  have bound : nearestRank n.natAbs 1 ≤ nearestRank (2 ^ (64 : Nat)) 1 := by
    obtain ⟨lower, upper⟩ := word
    exact nearestRank_mono (by omega)
  have greatest : nearestRank (2 ^ (64 : Nat)) 1 = 1087 * 2 ^ (52 : Nat) := by decide +kernel
  have finite : nearestRank n.natAbs 1 < 2047 * 2 ^ (52 : Nat) := by
    rw [greatest] at bound
    exact Nat.lt_of_le_of_lt bound (by decide)
  refine ⟨⟨decide (n < 0), nearestRank n.natAbs 1, finite⟩, ?_, rfl, rfl⟩
  simp only [ofInt_eq_getD, ofRatio?, ofRank?_eq _ finite, Option.getD_some]

theorem signedUnits_ofInt {n : Int} (word : IsWord n) :
    (ofInt n).signedUnits =
      if n < 0 then -(unitsOfRank (nearestRank n.natAbs 1) : Int)
      else unitsOfRank (nearestRank n.natAbs 1) := by
  obtain ⟨x, opened, sign, rank⟩ := ofInt_eq word
  rw [opened]
  simp only [signedUnits, units, sign, rank, decide_eq_true_eq]

/-- An integer as a multiple of the least positive double, by its magnitude. -/
theorem mul_unitsOfOne (n : Int) :
    n * unitsOfOne = if n < 0 then -((n.natAbs * unitsOfOne : Nat) : Int)
      else (n.natAbs * unitsOfOne : Nat) := by
  split
  · rw [Int.natCast_mul, ← Int.neg_mul, show -(n.natAbs : Int) = n by omega]
  · rw [Int.natCast_mul, show (n.natAbs : Int) = n by omega]

/-- A double is as far from an integer as its magnitude from that of the integer, unless zero
lies between them. -/
theorem natAbs_signedUnits_sub (x : Binary64) (n : Int) :
    (x.signedUnits - n * unitsOfOne).natAbs =
      if x.negative = decide (n < 0) then distance x.units (n.natAbs * unitsOfOne) 1
      else x.units + n.natAbs * unitsOfOne := by
  rw [mul_unitsOfOne]
  generalize n.natAbs * unitsOfOne = scaled
  simp only [signedUnits, distance, Nat.mul_one]
  by_cases below : n < 0
  all_goals cases x.negative <;> simp only [below, Bool.false_eq_true, Bool.true_eq_false,
    decide_true, decide_false, ↓reduceIte] <;> omega

theorem distance_zero (scaled : Nat) : distance 0 scaled 1 = scaled := by
  simp only [distance]
  omega

theorem ofInt_isNearest {n : Int} (word : IsWord n) : (ofInt n).IsNearest n := by
  obtain ⟨x, opened, sign, rank⟩ := ofInt_eq word
  obtain ⟨r, below, nearest⟩ := nearestRank_natural n.natAbs
  rw [nearest] at rank
  rw [opened]
  have away : (x.signedUnits - n * unitsOfOne).natAbs =
      distance (unitsOfRank x.rank) (n.natAbs * unitsOfOne) 1 := by
    rw [natAbs_signedUnits_sub, if_pos sign, units]
  have closest : ∀ k, distance (unitsOfRank x.rank) (n.natAbs * unitsOfOne) 1 ≤
      distance (unitsOfRank k) (n.natAbs * unitsOfOne) 1 := rank ▸ nearer_closest below
  have even : ∀ k, k ≠ x.rank → distance (unitsOfRank k) (n.natAbs * unitsOfOne) 1 =
      distance (unitsOfRank x.rank) (n.natAbs * unitsOfOne) 1 → x.rank % 2 = 0 :=
    fun k => rank ▸ @nearer_even _ _ _ below k
  -- A double beyond zero is no nearer than zero itself.
  have zero := closest 0
  rw [unitsOfRank_zero, distance_zero] at zero
  constructor
  · intro y
    rw [away, natAbs_signedUnits_sub y]
    split
    · exact closest y.rank
    · omega
  · intro y apart tie
    rw [away, natAbs_signedUnits_sub y] at tie
    split at tie
    · next side =>
      refine even y.rank (fun same => apart ?_) tie
      rw [signedUnits, signedUnits, units, units, same, side, sign]
    · by_cases least : 0 = x.rank
      · rw [← least]
      · refine even 0 least ?_
        rw [unitsOfRank_zero, distance_zero]
        omega

theorem ofInt_mono {n m : Int} (first : IsWord n) (second : IsWord m) (le : n ≤ m) :
    (ofInt n).signedUnits ≤ (ofInt m).signedUnits := by
  rw [signedUnits_ofInt first, signedUnits_ofInt second]
  split_ifs with below above above
  · have less : m.natAbs ≤ n.natAbs := by omega
    have order := unitsOfRank_strictMono.monotone (nearestRank_mono less)
    omega
  · omega
  · omega
  · have less : n.natAbs ≤ m.natAbs := by omega
    have order := unitsOfRank_strictMono.monotone (nearestRank_mono less)
    omega

theorem ofInt_exact {n : Int} (small : n.natAbs ≤ 2 ^ (53 : Nat)) :
    (ofInt n).signedUnits = n * unitsOfOne := by
  have word : IsWord n := by
    unfold IsWord
    omega
  rw [signedUnits_ofInt word, mul_unitsOfOne, nearestRank_exact small]

theorem ofInt_error {n : Int} (word : IsWord n) :
    ((ofInt n).signedUnits - n * unitsOfOne).natAbs * 2 ^ (53 : Nat) ≤ n.natAbs * unitsOfOne := by
  have error := nearestRank_error n.natAbs
  rw [signedUnits_ofInt word, mul_unitsOfOne]
  generalize unitsOfRank (nearestRank n.natAbs 1) = u at error ⊢
  generalize n.natAbs * unitsOfOne = scaled at error ⊢
  refine Nat.le_trans (Nat.mul_le_mul_right (2 ^ (53 : Nat)) ?_) error
  simp only [distance, Nat.mul_one]
  split_ifs <;> omega

end CloudAudit.Binary64
