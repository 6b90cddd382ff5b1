import CloudAudit.Files.Location

set_option autoImplicit false

/- Names in locations. A slash separates names and nothing else does, so a file with a plain name
adds just that name to those of the directory it is joined to. -/
namespace CloudAudit

namespace Location

theorem pieces_ne_nil (cs : List Char) : pieces cs ≠ [] := by
  cases cs with
  | nil => simp [pieces]
  | cons c rest =>
    rw [pieces]
    split
    · simp
    · split <;> simp

theorem pieces_of_not_mem {cs : List Char} (free : '/' ∉ cs) : pieces cs = [cs] := by
  induction cs with
  | nil => rfl
  | cons c rest ih =>
    rw [List.mem_cons, not_or] at free
    rw [pieces, if_neg (Ne.symm free.1), ih free.2]

theorem pieces_append_slash (first second : List Char) :
    pieces (first ++ '/' :: second) = pieces first ++ pieces second := by
  induction first with
  | nil =>
    change pieces ('/' :: second) = [] :: pieces second
    rw [pieces, if_pos rfl]
  | cons c rest ih =>
    rw [List.cons_append, pieces, pieces]
    by_cases slash : c = '/'
    · rw [if_pos slash, if_pos slash, ih, List.cons_append]
    · rw [if_neg slash, if_neg slash, ih]
      cases split : pieces rest with
      | nil => exact absurd split (pieces_ne_nil rest)
      | cons piece more => rfl

theorem names_append_slash (first second : List Char) :
    names (String.ofList (first ++ '/' :: second)) =
      names (String.ofList first) ++ names (String.ofList second) := by
  simp only [names, String.toList_ofList, pieces_append_slash, List.map_append,
    List.filter_append]

theorem names_of_not_mem {name : String} (free : '/' ∉ name.toList) (filled : name ≠ "")
    (other : name ≠ ".") : names name = [name] := by
  rw [names, pieces_of_not_mem free, List.map_singleton, String.ofList_toList]
  simp [filled, other]

/-- A file with a plain name stands right in the directory it is joined to. -/
theorem names_join {name : String} (free : '/' ∉ name.toList) (filled : name ≠ "")
    (other : name ≠ ".") (directory : String) :
    names (join directory name) = names directory ++ [name] := by
  have relative : isAbsolute name = false := by
    rw [isAbsolute, decide_eq_false_iff_not]
    exact fun first => free (List.mem_of_head? first)
  have own := names_of_not_mem free filled other
  unfold join
  by_cases empty : directory = ""
  · rw [if_pos (by simp [empty]), own, empty]
    rfl
  rw [if_neg (by simp [relative, empty])]
  split
  · next closed =>
    obtain ⟨front, split⟩ := List.getLast?_eq_some_iff.mp closed
    have whole : directory = String.ofList (front ++ '/' :: []) := by
      rw [← split, String.ofList_toList]
    have joined : directory ++ name = String.ofList (front ++ '/' :: name.toList) := by
      rw [whole, ← String.toList_inj]
      simp
    rw [joined, names_append_slash, whole, names_append_slash, String.ofList_toList, own,
      show names (String.ofList []) = [] from rfl, List.append_nil]
  · have joined : directory ++ "/" ++ name =
        String.ofList (directory.toList ++ '/' :: name.toList) := by
      rw [← String.toList_inj]
      simp
    rw [joined, names_append_slash, String.ofList_toList, String.ofList_toList, own]

/-- A location inside a directory starts as that of the directory. -/
theorem exists_join {name : String} (free : '/' ∉ name.toList) {directory : String}
    (filled : directory ≠ "") :
    ∃ rest, (join directory name).toList = directory.toList ++ rest := by
  have relative : isAbsolute name = false := by
    rw [isAbsolute, decide_eq_false_iff_not]
    exact fun first => free (List.mem_of_head? first)
  unfold join
  rw [if_neg (by simp [relative, filled])]
  split
  · exact ⟨name.toList, String.toList_append⟩
  · exact ⟨"/".toList ++ name.toList, by simp⟩

theorem isAbsolute_join {name : String} (free : '/' ∉ name.toList) {directory : String}
    (filled : directory ≠ "") : isAbsolute (join directory name) = isAbsolute directory := by
  obtain ⟨rest, starts⟩ := exists_join free filled
  have begins : directory.toList ≠ [] := by simpa using filled
  obtain ⟨first, more, split⟩ := List.exists_cons_of_ne_nil begins
  rw [isAbsolute, isAbsolute, starts, split]
  rfl

theorem join_ne_empty {name : String} (free : '/' ∉ name.toList) {directory : String}
    (filled : directory ≠ "") : join directory name ≠ "" := by
  obtain ⟨rest, starts⟩ := exists_join free filled
  intro empty
  rw [empty] at starts
  have nothing := (List.append_eq_nil_iff.mp starts.symm).1
  exact filled (by simpa using nothing)

end Location

end CloudAudit
