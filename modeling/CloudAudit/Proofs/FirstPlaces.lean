import Mathlib.Data.List.Basic

set_option autoImplicit false

/- Lists without their repeated elements, the order of which is that of first appearance in
the list they are made of. -/
namespace CloudAudit

variable {α : Type} [BEq α] [LawfulBEq α]

/-- Leaving elements out keeps which of two others comes first. -/
theorem idxOf_filter_lt {p : α → Bool} {a b : α} (left : p a = true) (right : p b = true)
    (xs : List α) : (xs.filter p).idxOf a < (xs.filter p).idxOf b ↔ xs.idxOf a < xs.idxOf b := by
  induction xs with
  | nil => simp
  | cons x rest ih =>
    by_cases kept : p x = true
    · rw [List.filter_cons_of_pos kept, List.idxOf_cons, List.idxOf_cons, List.idxOf_cons,
        List.idxOf_cons]
      cases x == a <;> cases x == b <;> simp [ih]
    · have apart : ∀ y, p y = true → (x == y) = false := by
        intro y told
        rw [beq_eq_false_iff_ne]
        rintro rfl
        exact kept told
      rw [List.filter_cons_of_neg kept, List.idxOf_cons, List.idxOf_cons, apart a left,
        apart b right]
      simpa using ih

/-- The first of equal elements stays, so those that stay are in order of first appearance. -/
theorem eraseDups_ascending (xs : List α) :
    xs.eraseDups.Pairwise fun a b => xs.idxOf a < xs.idxOf b := by
  -- After the first element comes what is left of the rest without it: a shorter list, no tail.
  induction size : xs.length using Nat.strongRecOn generalizing xs with
  | _ n ih =>
    cases xs with
    | nil => simp
    | cons x rest =>
      have shorter : (rest.filter fun y => !y == x).length < n := by
        rw [← size, List.length_cons]
        exact Nat.lt_succ_of_le (List.length_filter_le _ _)
      have other : ∀ {y}, y ∈ (rest.filter fun y => !y == x).eraseDups → (!y == x) = true :=
        fun member => (List.mem_filter.mp (List.mem_eraseDups.mp member)).2
      have later : ∀ {y}, (!y == x) = true → (x :: rest).idxOf y = rest.idxOf y + 1 := by
        intro y different
        have apart : (x == y) = false := by
          rw [Bool.not_eq_true', beq_eq_false_iff_ne] at different
          exact beq_eq_false_iff_ne.mpr (Ne.symm different)
        rw [List.idxOf_cons, apart]
        rfl
      rw [List.eraseDups_cons, List.pairwise_cons]
      constructor
      · intro y member
        rw [later (other member), List.idxOf_cons_self]
        exact Nat.succ_pos _
      · refine (ih _ shorter _ rfl).imp_of_mem fun {a b} first second before => ?_
        rw [idxOf_filter_lt (p := fun y => !y == x) (other first) (other second)] at before
        rw [later (other first), later (other second)]
        exact Nat.succ_lt_succ before

/-- Elements that are there already add nothing. -/
theorem eraseDups_append_of_subset {xs again : List α} (known : ∀ x ∈ again, x ∈ xs) :
    (xs ++ again).eraseDups = xs.eraseDups := by
  have nothing : again.removeAll xs = [] := by
    rw [List.removeAll, List.filter_eq_nil_iff]
    intro x member
    simpa using known x member
  rw [List.eraseDups_append, nothing, List.eraseDups_nil, List.append_nil]

end CloudAudit
