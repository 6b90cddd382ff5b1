import CloudAudit.Proofs.NearestDouble
import CloudAudit.Proofs.PathDigits

set_option autoImplicit false

/- Integers written out. The text of an integer is its digits behind a sign, if it has one. It
reads back as that integer within 63 bits and a sign, and beyond them only as a decimal, which
is the double nearest to it. -/
namespace CloudAudit.Number

-- Powers are core's, also where an algebra library is imported.
attribute [local instance (high)] instPowNat

open Binary64 (IsWord)

/-! Digits. -/

theorem isDigit_toDigits {n : Nat} {c : Char} (member : c ∈ Nat.toDigits 10 n) :
    isDigit c = true := by
  have shown := Nat.isDigit_of_mem_toDigits (by decide) (by decide) member
  rw [Char.isDigit, Bool.and_eq_true, decide_eq_true_eq, decide_eq_true_eq] at shown
  rw [isDigit, Bool.and_eq_true, decide_eq_true_eq, decide_eq_true_eq]
  exact shown

theorem ofDigits_toDigits (n : Nat) : ofDigits (Nat.toDigits 10 n) = n :=
  Nat.ofDigitChars_ten_toDigits

theorem natural?_toDigits (n : Nat) : natural? (Nat.toDigits 10 n) = some n := by
  have digits : (Nat.toDigits 10 n).all isDigit = true :=
    List.all_eq_true.mpr fun _ => isDigit_toDigits
  rw [natural?, if_pos ⟨Nat.toDigits_ne_nil, digits⟩, ofDigits_toDigits]

/-! Signs. -/

theorem toList_toString (n : Int) : (toString n).toList =
    if n < 0 then '-' :: Nat.toDigits 10 n.natAbs else Nat.toDigits 10 n.natAbs := by
  rw [Int.toString_eq_repr, Int.repr_eq_if]
  by_cases negative : n < 0
  · have magnitude : (-n).toNat = n.natAbs := by omega
    rw [if_neg (by omega), if_pos negative, String.toList_append, Nat.toList_repr, magnitude]
    rfl
  · have magnitude : n.toNat = n.natAbs := by omega
    rw [if_pos (by omega), if_neg negative, Nat.toList_repr, magnitude]

theorem splitSign_toString (n : Int) :
    splitSign (toString n).toList = (decide (n < 0), Nat.toDigits 10 n.natAbs) := by
  rw [toList_toString]
  by_cases negative : n < 0
  · simp only [negative, ↓reduceIte, splitSign, decide_true]
  · simp only [negative, ↓reduceIte, decide_false]
    cases digits : Nat.toDigits 10 n.natAbs with
    | nil => rfl
    | cons c rest =>
      have shown : isDigit c = true := isDigit_toDigits (digits ▸ List.mem_cons_self)
      have minus : c ≠ '-' := by
        rintro rfl
        exact absurd shown (by decide)
      have plus : c ≠ '+' := by
        rintro rfl
        exact absurd shown (by decide)
      simp [splitSign, minus, plus]

/-! Reading back. -/

theorem int64?_toString (n : Int) : int64? (toString n).toList =
    if -(2 ^ (63 : Nat)) ≤ n ∧ n < 2 ^ (63 : Nat) then some n else none := by
  have value : (if decide (n < 0) = true then -(n.natAbs : Int) else n.natAbs) = n := by
    simp only [decide_eq_true_eq]
    omega
  rw [int64?, splitSign_toString]
  simp only [natural?_toDigits, Option.bind_some, value]

theorem ofRatio?_ofInt {n : Int} (word : IsWord n) :
    Binary64.ofRatio? (n < 0) n.natAbs 1 = some (Binary64.ofInt n) := by
  obtain ⟨x, same, sign, rank⟩ := Binary64.ofInt_eq word
  obtain ⟨negative, place, finite⟩ := x
  subst sign rank
  rw [same, Binary64.ofRatio?, Binary64.ofRank?_eq _ finite]

theorem finite?_toString {n : Int} (word : IsWord n) (nonzero : n ≠ 0) :
    finite? (toString n).toList = some (Binary64.ofInt n) := by
  have short : Binary64.decimalLength n.natAbs ≤ 20 := by
    obtain ⟨lower, upper⟩ := word
    refine (Nat.length_toDigits_le_iff (by decide) (by decide)).mpr ?_
    omega
  have taken : (Nat.toDigits 10 n.natAbs).takeWhile isDigit = Nat.toDigits 10 n.natAbs :=
    List.takeWhile_eq_self_iff.mpr fun _ => isDigit_toDigits
  have dropped : (Nat.toDigits 10 n.natAbs).dropWhile isDigit = [] :=
    List.dropWhile_eq_nil_iff.mpr fun _ => isDigit_toDigits
  rw [finite?, splitSign_toString]
  simp only [taken, dropped, Nat.toDigits_ne_nil, false_and, ↓reduceIte, Option.bind_some,
    List.append_nil, ofDigits_toDigits, List.length_nil, Int.natCast_zero, Int.sub_zero]
  rw [Binary64.ofDecimal?]
  simp only [Int.zero_add]
  rw [if_neg (by omega), if_neg (by omega), if_pos (Int.le_refl 0), Int.toNat_zero, Nat.pow_zero,
    Nat.mul_one, ofRatio?_ofInt word]

end CloudAudit.Number
