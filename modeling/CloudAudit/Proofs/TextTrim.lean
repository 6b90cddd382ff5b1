import CloudAudit.Text.Affix
import Mathlib.Data.List.DropRight

set_option autoImplicit false

/- Text without blanks at its ends: what is left neither starts nor ends with a blank, and such a
text is what is left of any blanks around it. -/
namespace CloudAudit.Text

/-- Cutting blanks leaves nothing of blanks only. -/
theorem trim_eq_nil {cs : List Char} : trim cs = [] ↔ ∀ c ∈ cs, isBlank c = true := by
  have ends : trim cs = [] ↔ ∀ c ∈ cs.dropWhile isBlank, isBlank c = true :=
    List.rdropWhile_eq_nil_iff
  rw [ends]
  constructor
  · intro blank c member
    rw [← List.takeWhile_append_dropWhile (p := isBlank) (l := cs), List.mem_append] at member
    exact member.elim List.mem_takeWhile_imp (blank c)
  · intro blank c member
    exact blank c (List.dropWhile_subset _ member)

theorem trimmed_ne_empty {s : String} : trimmed s ≠ "" ↔ allBlank s = false := by
  rw [Ne, trimmed, ← Bool.not_eq_true, allBlank, List.all_eq_true, ← trim_eq_nil, not_iff_not]
  exact String.ofList_eq_empty_iff

theorem trim_last {cs : List Char} {c : Char} (last : (trim cs).getLast? = some c) :
    isBlank c = false := by
  have filled : trim cs ≠ [] := by
    intro empty
    rw [empty] at last
    cases last
  rw [List.getLast?_eq_some_getLast filled] at last
  obtain rfl := Option.some.inj last
  exact Bool.eq_false_iff.mpr (List.rdropWhile_last_not isBlank (trimStart cs) filled)

theorem trim_first {cs : List Char} {c : Char} (first : (trim cs).head? = some c) :
    isBlank c = false := by
  obtain ⟨rest, whole⟩ := List.head?_eq_some_iff.mp first
  have start : (trimStart cs).head? = some c := by
    obtain ⟨after, split⟩ := List.rdropWhile_prefix isBlank (trimStart cs)
    rw [← split, List.head?_append, show List.rdropWhile isBlank (trimStart cs) = trim cs from rfl,
      first]
    rfl
  have filled : trimStart cs ≠ [] := by
    intro empty
    rw [empty] at start
    cases start
  rw [List.head?_eq_some_head filled] at start
  obtain rfl := Option.some.inj start
  exact List.head_dropWhile_not isBlank filled

/-- Blanks around a text that has none at its ends are all that is cut. -/
theorem trim_padded {before cs after : List Char} (front : ∀ c ∈ before, isBlank c = true)
    (back : ∀ c ∈ after, isBlank c = true) (first : ∀ c, cs.head? = some c → isBlank c = false)
    (last : ∀ c, cs.getLast? = some c → isBlank c = false) : trim (before ++ cs ++ after) = cs := by
  cases cs with
  | nil =>
    rw [List.append_nil, trim_eq_nil]
    intro c member
    exact (List.mem_append.mp member).elim (front c) (back c)
  | cons d rest =>
    have start : trimStart (before ++ d :: rest ++ after) = d :: rest ++ after := by
      rw [trimStart, List.append_assoc, List.dropWhile_append_of_pos front, List.cons_append,
        List.dropWhile_cons_of_neg (by simp [first d rfl])]
    have shown : isBlank ((d :: rest).getLast (List.cons_ne_nil d rest)) = false :=
      last _ (List.getLast?_eq_some_getLast _)
    rw [trim, start, trimEnd, List.reverse_append,
      List.dropWhile_append_of_pos fun c member => back c (List.mem_reverse.mp member)]
    refine (List.rdropWhile_eq_self_iff (p := isBlank)).mpr fun filled => ?_
    simp [shown]

theorem trim_eq_self {cs : List Char} (first : ∀ c, cs.head? = some c → isBlank c = false)
    (last : ∀ c, cs.getLast? = some c → isBlank c = false) : trim cs = cs := by
  have padded := @trim_padded [] cs [] (fun _ => nofun) (fun _ => nofun) first last
  rwa [List.nil_append, List.append_nil] at padded

theorem trimmed_trimmed (s : String) : trimmed (trimmed s) = trimmed s := by
  rw [trimmed, trimmed, String.toList_ofList, trim_eq_self (fun _ => trim_first) fun _ => trim_last]

end CloudAudit.Text
