import CloudAudit.Evaluate
import CloudAudit.Proofs.NearestDouble

set_option autoImplicit false

/- Operators on integers. An integer is compared by the double nearest to it, so verdicts keep
the order of integers but do not tell all integers of 64 bits apart. -/
namespace CloudAudit

-- Powers are core's, also where an algebra library is imported.
attribute [local instance (high)] instPowNat

open Binary64

/-- Whether two integers have the same nearest double. -/
def SameDouble (a b : Int) : Prop := (ofInt a).signedUnits = (ofInt b).signedUnits

instance (a b : Int) : Decidable (SameDouble a b) :=
  inferInstanceAs (Decidable ((ofInt a).signedUnits = (ofInt b).signedUnits))

theorem SameDouble.comm (a b : Int) : SameDouble a b ↔ SameDouble b a := eq_comm

/-- Different integers share a double only where they are many times larger than their
difference. -/
theorem SameDouble.close {a b : Int} (same : SameDouble a b) (left : IsWord a)
    (right : IsWord b) : (a - b).natAbs * 2 ^ (53 : Nat) ≤ a.natAbs + b.natAbs := by
  have first := ofInt_error left
  have second := ofInt_error right
  rw [← show (ofInt a).signedUnits = (ofInt b).signedUnits from same] at second
  generalize (ofInt a).signedUnits = units at first second
  have apart : ((a - b) * unitsOfOne).natAbs ≤
      (units - a * unitsOfOne).natAbs + (units - b * unitsOfOne).natAbs := by
    rw [Int.sub_mul]
    omega
  rw [Int.natAbs_mul, Int.natAbs_natCast] at apart
  refine Nat.le_of_mul_le_mul_right ?_ unitsOfOne_pos
  calc
    (a - b).natAbs * 2 ^ (53 : Nat) * unitsOfOne = (a - b).natAbs * unitsOfOne * 2 ^ (53 : Nat) :=
      Nat.mul_right_comm ..
    _ ≤ ((units - a * unitsOfOne).natAbs + (units - b * unitsOfOne).natAbs) * 2 ^ (53 : Nat) :=
      Nat.mul_le_mul_right _ apart
    _ ≤ a.natAbs * unitsOfOne + b.natAbs * unitsOfOne := by
      rw [Nat.add_mul]
      exact Nat.add_le_add first second
    _ = (a.natAbs + b.natAbs) * unitsOfOne := (Nat.add_mul ..).symm

/-- Integers of up to 53 bits are told apart. -/
theorem SameDouble.eq {a b : Int} (same : SameDouble a b) (left : a.natAbs ≤ 2 ^ (53 : Nat))
    (right : b.natAbs ≤ 2 ^ (53 : Nat)) : a = b := by
  rw [SameDouble, ofInt_exact left, ofInt_exact right] at same
  have positive : (unitsOfOne : Int) ≠ 0 :=
    Int.natCast_ne_zero.mpr unitsOfOne_pos.ne'
  exact Int.eq_of_mul_eq_mul_right positive same

theorem Json.alike_int (a b : Int) : (Json.int a).alike (.int b) = decide (SameDouble a b) := by
  simp only [Json.int, Json.alike, Number.toBinary64, eqv_eq]
  exact decide_eq_decide.mpr Iff.rfl

namespace Operator

/-- The operators that compare two numbers. -/
def comparisons : List Operator := [equals, notEquals, gt, gte, lt, lte]

/-- What an operator says of two integers by exact arithmetic. -/
def compares : Operator → Int → Int → Bool
  | equals, a, b => a = b
  | notEquals, a, b => a ≠ b
  | gt, a, b => a > b
  | gte, a, b => a ≥ b
  | lt, a, b => a < b
  | lte, a, b => a ≤ b
  | _, _, _ => false

theorem evaluate_int {op : Operator} (listed : op ∈ comparisons) (a b : Int) :
    op.evaluate (some (.int a)) (.int b) =
      ⟨op.compares (ofInt a).signedUnits (ofInt b).signedUnits, none⟩ := by
  have equal : (Json.int a).alike (.int b) =
      decide ((ofInt a).signedUnits = (ofInt b).signedUnits) :=
    (Json.alike_int a b).trans (decide_eq_decide.mpr Iff.rfl)
  simp only [comparisons, List.mem_cons, List.not_mem_nil, or_false] at listed
  rcases listed with rfl | rfl | rfl | rfl | rfl | rfl
  · simp only [evaluate, evaluatePresent, equal, compares]
  · simp only [evaluate, evaluatePresent, equal, compares, ne_eq, decide_not]
  all_goals simp only [evaluate, evaluatePresent, compareNumbers, Json.int, Json.toBinary64?,
    Number.toBinary64, ordered, lt_eq, le_eq, compares, gt_iff_lt, ge_iff_le]

/-- Operators see the doubles of integers, so exact arithmetic is what they come to just where
different integers have different doubles. -/
theorem evaluate_int_exact_iff {a b : Int} (left : IsWord a) (right : IsWord b) :
    (∀ op ∈ comparisons, op.evaluate (some (.int a)) (.int b) = ⟨op.compares a b, none⟩) ↔
      (SameDouble a b → a = b) := by
  constructor
  · intro exact same
    have seen := @evaluate_int .equals (by decide) a b
    rw [exact .equals (by decide)] at seen
    have passed := congrArg Verdict.passed seen
    simp only [compares, decide_eq_decide] at passed
    exact passed.mpr same
  · intro apart op listed
    have ascending := ofInt_mono left right
    have descending := ofInt_mono right left
    rw [evaluate_int listed]
    rw [SameDouble] at apart
    generalize (ofInt a).signedUnits = x at *
    generalize (ofInt b).signedUnits = y at *
    simp only [comparisons, List.mem_cons, List.not_mem_nil, or_false] at listed
    rcases listed with rfl | rfl | rfl | rfl | rfl | rfl
    all_goals
      simp only [compares, Verdict.mk.injEq, and_true, decide_eq_decide]
      omega

/-- A list of integers. -/
def ints (ns : List Int) : Json := .array (ns.map .int)

/-- Searching a list of integers, from the list's side and from the integer's. -/
theorem search_ints (ns : List Int) (b : Int) :
    contains.evaluate (some (ints ns)) (.int b) = ⟨decide (∃ n ∈ ns, SameDouble n b), none⟩ ∧
    notContains.evaluate (some (ints ns)) (.int b) = ⟨!decide (∃ n ∈ ns, SameDouble n b), none⟩ ∧
    isIn.evaluate (some (.int b)) (ints ns) = ⟨decide (∃ n ∈ ns, SameDouble n b), none⟩ := by
  have found : ((ns.map Json.int).any fun e => e.alike (.int b)) =
      decide (∃ n ∈ ns, SameDouble n b) := by
    rw [Bool.eq_iff_iff]
    simp only [List.any_map, Function.comp_def, Json.alike_int, List.any_eq_true, decide_eq_true_eq]
  have listed : ((ns.map Json.int).any fun c => (Json.int b).alike c) =
      decide (∃ n ∈ ns, SameDouble n b) := by
    rw [← found]
    simp only [List.any_map, Function.comp_def, Json.alike_int, SameDouble.comm b]
  simp only [evaluate, evaluatePresent, containsValue, ints, found, listed, and_self]

/-- How two integers are compared. -/
structure ComparedAsDoubles (a b : Int) : Prop where
  /-- Each stands for the double nearest to it. -/
  nearest : (ofInt a).IsNearest a ∧ (ofInt b).IsNearest b
  /-- A comparison is exact arithmetic on these doubles, without a warning. -/
  verdict : ∀ op ∈ comparisons, op.evaluate (some (.int a)) (.int b) =
    ⟨op.compares (ofInt a).signedUnits (ofInt b).signedUnits, none⟩
  /-- No order is turned round. -/
  ordered : (a ≤ b → (ofInt a).signedUnits ≤ (ofInt b).signedUnits) ∧
    (b ≤ a → (ofInt b).signedUnits ≤ (ofInt a).signedUnits)
  /-- All six are exact arithmetic on the integers unless two different ones share a double. -/
  exact_iff : (∀ op ∈ comparisons, op.evaluate (some (.int a)) (.int b) =
    ⟨op.compares a b, none⟩) ↔ (SameDouble a b → a = b)
  /-- Different integers of up to 53 bits share none. -/
  small : a.natAbs ≤ 2 ^ (53 : Nat) → b.natAbs ≤ 2 ^ (53 : Nat) → SameDouble a b → a = b
  /-- Those that share one differ by little. -/
  close : SameDouble a b → (a - b).natAbs * 2 ^ (53 : Nat) ≤ a.natAbs + b.natAbs
  /-- A list of integers is searched for one with the same double. -/
  search : ∀ ns : List Int,
    contains.evaluate (some (ints ns)) (.int b) = ⟨decide (∃ n ∈ ns, SameDouble n b), none⟩ ∧
    notContains.evaluate (some (ints ns)) (.int b) = ⟨!decide (∃ n ∈ ns, SameDouble n b), none⟩ ∧
    isIn.evaluate (some (.int b)) (ints ns) = ⟨decide (∃ n ∈ ns, SameDouble n b), none⟩
  /-- That is the integer itself in a list where no other one shares its double. -/
  found : ∀ ns : List Int, (∀ n ∈ ns, SameDouble n b → n = b) →
    ((∃ n ∈ ns, SameDouble n b) ↔ b ∈ ns)

/-- Integers are compared, and searched for in lists, by their nearest doubles. -/
theorem integers_compare_as_doubles {a b : Int} (left : IsWord a) (right : IsWord b) :
    ComparedAsDoubles a b where
  nearest := ⟨ofInt_isNearest left, ofInt_isNearest right⟩
  verdict _ listed := evaluate_int listed a b
  ordered := ⟨ofInt_mono left right, ofInt_mono right left⟩
  exact_iff := evaluate_int_exact_iff left right
  small first second same := same.eq first second
  close same := same.close left right
  search ns := search_ints ns b
  found _ alone :=
    ⟨fun ⟨n, member, same⟩ => alone n member same ▸ member, fun member => ⟨b, member, rfl⟩⟩

/-- The greatest two integers are compared as one double. -/
theorem greatest_compare_as_doubles :
    IsWord (2 ^ (64 : Nat) - 2) ∧ IsWord (2 ^ (64 : Nat) - 1) ∧
      ComparedAsDoubles (2 ^ (64 : Nat) - 2) (2 ^ (64 : Nat) - 1) ∧
      SameDouble (2 ^ (64 : Nat) - 2) (2 ^ (64 : Nat) - 1) :=
  ⟨by decide, by decide, integers_compare_as_doubles (by decide) (by decide), by decide +kernel⟩

/-- Two ids of 54 bits that differ in their last digit pass as equal, and neither is greater. -/
theorem adjacent_ids_pass_as_equal :
    (9007199254740993 : Int) ≠ 9007199254740992 ∧
    equals.evaluate (some (.int 9007199254740993)) (.int 9007199254740992) = ⟨true, none⟩ ∧
    gt.evaluate (some (.int 9007199254740993)) (.int 9007199254740992) = ⟨false, none⟩ ∧
    isIn.evaluate (some (.int 9007199254740993)) (ints [9007199254740992]) = ⟨true, none⟩ := by
  decide +kernel

end Operator

end CloudAudit
