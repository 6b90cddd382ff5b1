import CloudAudit.Files.Tree
import CloudAudit.Proofs.LocationNames
import CloudAudit.Proofs.Success
import Mathlib.Data.List.Nodup

set_option autoImplicit false

/- Which files a walk below a directory finds. A file is below a directory when names lead to it
from there, links followed. A walk that can go everywhere finds each such file, and finds it once,
when no directory has a name twice. -/
namespace CloudAudit

namespace FileNode

/-- A name that an entry of a directory may have: it is told from others by slashes around it,
and it is neither the directory itself nor the one around it. -/
structure IsName (name : String) : Prop where
  filled : name ≠ ""
  here : name ≠ "."
  around : name ≠ ".."
  slash_free : '/' ∉ name.toList

instance (name : String) : Decidable (IsName name) :=
  decidable_of_iff (name ≠ "" ∧ name ≠ "." ∧ name ≠ ".." ∧ '/' ∉ name.toList)
    ⟨fun ⟨filled, here, around, free⟩ => ⟨filled, here, around, free⟩,
      fun ⟨filled, here, around, free⟩ => ⟨filled, here, around, free⟩⟩

/-- In every directory the entries have names, and no two of them have the same. -/
inductive Tidy : FileNode → Prop where
  | file (content : ByteArray) : Tidy (.file content)
  | link (target : List String) : Tidy (.link target)
  | directory {entries : List (String × FileNode)} (distinct : (entries.map Prod.fst).Nodup)
    (named : ∀ e ∈ entries, IsName e.1) (each : ∀ e ∈ entries, Tidy e.2) :
    Tidy (.directory entries)

theorem mem_of_lookup {entries : List (String × FileNode)} {name : String} {n : FileNode}
    (found : entries.lookup name = some n) : (name, n) ∈ entries := by
  obtain ⟨before, after, rfl, _⟩ := List.lookup_eq_some_iff.mp found
  exact List.mem_append_cons_self

theorem child?_directory (entries : List (String × FileNode)) (name : String)
    (rest : List String) : (FileNode.directory entries).child? (name :: rest) =
      (entries.lookup name).bind fun n => n.child? rest := by
  rw [FileNode.child?]
  cases entries.lookup name with
  | none => rfl
  | some n => rfl

theorem child?_cons_eq_some {n m : FileNode} {name : String} {rest : List String} :
    n.child? (name :: rest) = some m ↔ ∃ entries inner, n = .directory entries ∧
      entries.lookup name = some inner ∧ inner.child? rest = some m := by
  constructor
  · intro found
    cases n with
    | file content => cases found
    | link target => cases found
    | directory entries =>
      rw [child?_directory, Option.bind_eq_some_iff] at found
      obtain ⟨inner, present, found⟩ := found
      exact ⟨entries, inner, rfl, present, found⟩
  · rintro ⟨entries, inner, rfl, present, found⟩
    rw [child?_directory, present]
    exact found

theorem Tidy.child? {n m : FileNode} (tidy : n.Tidy) {names : List String}
    (found : n.child? names = some m) : m.Tidy := by
  induction names generalizing n with
  | nil =>
    rw [FileNode.child?] at found
    rwa [← Option.some.inj found]
  | cons name rest ih =>
    obtain ⟨entries, inner, rfl, present, found⟩ := child?_cons_eq_some.mp found
    cases tidy with
    | directory _ _ each => exact ih (each _ (mem_of_lookup present)) found

/-- Where an entry at a place leads: a link to what it names, anything else to itself. -/
def leadsTo? (root : FileNode) (place : List String) : FileNode → Option (List String × FileNode)
  | .link target => FileTree.walk root FileTree.depthLimit FileTree.linkLimit [] target
  | n => some (place, n)

/-- Names lead from a directory to a file below it, links followed. -/
inductive HasFile (root : FileNode) : List String → List String → Prop where
  | file {here place : List String} {entries : List (String × FileNode)} {name : String}
    {n : FileNode} {content : ByteArray} (listed : root.child? here = some (.directory entries))
    (entry : (name, n) ∈ entries)
    (leads : root.leadsTo? (here ++ [name]) n = some (place, .file content)) :
    HasFile root here [name]
  | inside {here place names : List String} {entries inner : List (String × FileNode)}
    {name : String} {n : FileNode} (listed : root.child? here = some (.directory entries))
    (entry : (name, n) ∈ entries)
    (leads : root.leadsTo? (here ++ [name]) n = some (place, .directory inner))
    (rest : HasFile root place names) : HasFile root here (name :: names)

/-- The names that lead to a file of a tidy tree are names of entries. -/
theorem HasFile.named {root : FileNode} (tidy : root.Tidy) {here names : List String}
    (leads : HasFile root here names) : ∀ name ∈ names, IsName name := by
  have entries_named : ∀ {here : List String} {entries : List (String × FileNode)} {name n},
      root.child? here = some (.directory entries) → (name, n) ∈ entries → IsName name := by
    intro here entries name n listed entry
    cases tidy.child? listed with
    | directory _ named _ => exact named _ entry
  induction leads with
  | file listed entry _ =>
    intro name member
    rw [List.mem_singleton.mp member]
    exact entries_named listed entry
  | inside listed entry _ _ ih =>
    intro name member
    rcases List.mem_cons.mp member with rfl | later
    · exact entries_named listed entry
    · exact ih name later

end FileNode

namespace Location

/-- Location of what names lead to from a location on. -/
def below (location : String) (names : List String) : String := names.foldl join location

theorem names_below {names : List String} (named : ∀ name ∈ names, FileNode.IsName name)
    (location : String) : Location.names (below location names) = Location.names location ++ names := by
  induction names generalizing location with
  | nil => exact (List.append_nil _).symm
  | cons name rest ih =>
    obtain ⟨own, others⟩ := List.forall_mem_cons.mp named
    change Location.names (below (join location name) rest) = _
    rw [ih others, names_join own.slash_free own.filled own.here, List.append_assoc,
      List.singleton_append]

end Location

namespace FileTree

open FileNode

variable {t : FileTree} {fuel : Nat} {around : List (List String)} {here names : List String}
  {location : String}

/-- What a walk at a directory finds at one of its entries. -/
def filesAt (t : FileTree) (fuel : Nat) (around : List (List String)) (here names : List String)
    (location : String) (e : String × FileNode) : Except String (List Found) :=
  match e.2 with
  | .file _ => .ok [⟨names ++ [e.1], Location.join location e.1⟩]
  | .directory _ =>
    filesBelow t fuel (here :: around) (here ++ [e.1]) (names ++ [e.1]) (Location.join location e.1)
  | .link target => match walk t.root depthLimit linkLimit [] target with
    | some (_, .file _) => .ok [⟨names ++ [e.1], Location.join location e.1⟩]
    | some (place, .directory _) =>
      if (here :: around).contains place then .error (Location.join location e.1)
      else filesBelow t fuel (here :: around) place (names ++ [e.1]) (Location.join location e.1)
    | _ => .error (Location.join location e.1)

theorem filesBelow_directory {entries : List (String × FileNode)}
    (listed : t.root.child? here = some (.directory entries)) :
    filesBelow t (fuel + 1) around here names location = entries.foldlM (fun found e => do
      let below ← filesAt t fuel around here names location e
      pure (found ++ below)) [] := by
  rw [filesBelow, listed]
  change entries.foldlM _ [] = entries.foldlM _ []
  congr 1
  funext found e
  obtain ⟨name, n⟩ := e
  cases n with
  | file content => rfl
  | directory inner => rfl
  | link target =>
    simp only [filesAt]
    rcases walk t.root depthLimit linkLimit [] target with _ | ⟨place, _ | _ | _⟩
    · rfl
    · rfl
    · simp only
      split <;> rfl
    · rfl

/-- A walk that finds files is at a directory, and can go on at each of its entries, or is at
something that has no entries. -/
theorem filesBelow_eq_ok {found : List Found} :
    filesBelow t (fuel + 1) around here names location = .ok found ↔
      (∃ entries lists, t.root.child? here = some (.directory entries) ∧
        List.Forall₂ (fun e l => filesAt t fuel around here names location e = .ok l) entries lists ∧
        found = lists.flatten) ∨
      (∀ entries, t.root.child? here ≠ some (.directory entries)) ∧ found = [] := by
  by_cases directory : ∃ entries, t.root.child? here = some (.directory entries)
  · obtain ⟨entries, listed⟩ := directory
    rw [filesBelow_directory listed, collect_eq_ok]
    simp only [List.nil_append]
    constructor
    · rintro ⟨lists, each, whole⟩
      exact .inl ⟨entries, lists, listed, each, whole⟩
    · rintro (⟨others, lists, same, each, whole⟩ | ⟨never, _⟩)
      · obtain rfl : entries = others := by
          rw [listed] at same
          exact FileNode.directory.inj (Option.some.inj same)
        exact ⟨lists, each, whole⟩
      · exact absurd listed (never entries)
  · push Not at directory
    have nothing : filesBelow t (fuel + 1) around here names location = .ok [] := by
      rw [filesBelow]
      split
      · next entries listed => exact absurd listed (directory entries)
      · rfl
    rw [nothing]
    constructor
    · intro same
      exact .inr ⟨directory, (Except.ok.inj same).symm⟩
    · rintro (⟨entries, _, listed, _⟩ | ⟨_, rfl⟩)
      · exact absurd listed (directory entries)
      · rfl

/-- An entry is a file, or a directory that can be walked; a link to a directory around it
cannot. -/
theorem filesAt_eq_ok {e : String × FileNode} {found : List Found} :
    filesAt t fuel around here names location e = .ok found ↔
      (∃ place content, t.root.leadsTo? (here ++ [e.1]) e.2 = some (place, .file content) ∧
        found = [⟨names ++ [e.1], Location.join location e.1⟩]) ∨
      ∃ place inner, t.root.leadsTo? (here ++ [e.1]) e.2 = some (place, .directory inner) ∧
        ((∃ target, e.2 = .link target) → place ∉ here :: around) ∧
        filesBelow t fuel (here :: around) place (names ++ [e.1]) (Location.join location e.1) =
          .ok found := by
  obtain ⟨name, n⟩ := e
  cases n with
  | file content => simp [filesAt, leadsTo?, eq_comm]
  | directory inner => simp [filesAt, leadsTo?]
  | link target =>
    simp only [filesAt, leadsTo?]
    rcases walk t.root depthLimit linkLimit [] target with _ | ⟨place, content | inner | target⟩
    · simp
    · simp [eq_comm]
    · simp only [Option.some.injEq, Prod.mk.injEq, reduceCtorEq, and_false, false_and, exists_false,
        false_or, List.contains_iff_mem]
      split
      · next inside => simp [inside]
      · next outside => simp [outside]
    · simp

/-- A walk finds the files that names lead to. -/
theorem mem_filesBelow {found : List Found}
    (walked : filesBelow t fuel around here names location = .ok found) {f : Found} :
    f ∈ found ↔ ∃ rest, t.root.HasFile here rest ∧
      f = ⟨names ++ rest, Location.below location rest⟩ := by
  induction fuel generalizing around here names location found f with
  | zero => cases walked
  | succ fuel ih =>
    rcases filesBelow_eq_ok.mp walked with ⟨entries, lists, listed, each, rfl⟩ | ⟨never, rfl⟩
    · rw [List.mem_flatten]
      constructor
      · rintro ⟨l, inside, member⟩
        obtain ⟨e, entry, here_found⟩ := exists_of_forall₂ each inside
        rcases filesAt_eq_ok.mp here_found with ⟨place, content, leads, rfl⟩ |
          ⟨place, inner, leads, _, walked⟩
        · exact ⟨[e.1], .file listed entry leads, List.mem_singleton.mp member⟩
        · obtain ⟨rest, has, rfl⟩ := (ih walked).mp member
          refine ⟨e.1 :: rest, .inside listed entry leads has, ?_⟩
          rw [List.append_assoc]
          rfl
      · rintro ⟨rest, has, rfl⟩
        cases has with
        | @file _ place others name n content same entry leads =>
          obtain rfl : entries = others :=
            FileNode.directory.inj (Option.some.inj (listed.symm.trans same))
          obtain ⟨l, inside, here_found⟩ := exists_of_forall₂ each.flip entry
          rcases filesAt_eq_ok.mp here_found with ⟨_, _, _, rfl⟩ | ⟨_, _, other, _⟩
          · exact ⟨_, inside, List.mem_singleton_self _⟩
          · cases leads.symm.trans other
        | @inside _ place rest others inner name n same entry leads has =>
          obtain rfl : entries = others :=
            FileNode.directory.inj (Option.some.inj (listed.symm.trans same))
          obtain ⟨l, inside, here_found⟩ := exists_of_forall₂ each.flip entry
          rcases filesAt_eq_ok.mp here_found with ⟨_, _, other, _⟩ | ⟨place', _, same, _, walked⟩
          · cases leads.symm.trans other
          · obtain ⟨rfl, _⟩ := Prod.mk.inj (Option.some.inj (leads.symm.trans same))
            refine ⟨l, inside, (ih walked).mpr ⟨rest, has, ?_⟩⟩
            rw [List.append_assoc]
            rfl
    · constructor
      · intro member
        cases member
      · rintro ⟨rest, has, _⟩
        cases has with
        | file listed _ _ => exact absurd listed (never _)
        | inside listed _ _ _ => exact absurd listed (never _)

theorem names_of_filesAt {e : String × FileNode} {found : List Found}
    (walked : filesAt t fuel around here names location e = .ok found) {f : Found}
    (member : f ∈ found) : ∃ rest, f.names = names ++ e.1 :: rest := by
  rcases filesAt_eq_ok.mp walked with ⟨_, _, _, rfl⟩ | ⟨_, _, _, _, walked⟩
  · exact ⟨[], by rw [List.mem_singleton.mp member]⟩
  · obtain ⟨rest, _, rfl⟩ := (mem_filesBelow walked).mp member
    exact ⟨rest, List.append_assoc ..⟩

/-- Entries with names of their own have files of their own. -/
theorem distinct_flatten {entries : List (String × FileNode)} {lists : List (List Found)}
    (each : List.Forall₂ (fun e l => filesAt t fuel around here names location e = .ok l)
      entries lists)
    (distinct : (entries.map Prod.fst).Nodup) (own : ∀ l ∈ lists, (l.map (·.names)).Nodup) :
    (lists.flatten.map (·.names)).Nodup := by
  induction each with
  | nil => exact List.nodup_nil
  | @cons e l entries lists first each ih =>
    obtain ⟨fresh, distinct⟩ := List.nodup_cons.mp distinct
    obtain ⟨here_own, own⟩ := List.forall_mem_cons.mp own
    rw [List.flatten_cons, List.map_append, List.nodup_append]
    refine ⟨here_own, ih distinct own, ?_⟩
    rintro _ one other two rfl
    obtain ⟨f, member, same⟩ := List.mem_map.mp one
    obtain ⟨g, later, same'⟩ := List.mem_map.mp two
    obtain ⟨l', inside, member'⟩ := List.mem_flatten.mp later
    obtain ⟨e', entry, second⟩ := exists_of_forall₂ each inside
    obtain ⟨rest, names_f⟩ := names_of_filesAt first member
    obtain ⟨rest', names_g⟩ := names_of_filesAt second member'
    have tails := List.append_cancel_left
      (names_f.symm.trans (same.trans (same'.symm.trans names_g)))
    exact fresh (List.mem_map.mpr ⟨e', entry, (List.cons.inj tails).1.symm⟩)

/-- A walk of a tidy tree finds no names twice. -/
theorem filesBelow_distinct (tidy : t.root.Tidy) {found : List Found}
    (walked : filesBelow t fuel around here names location = .ok found) :
    (found.map (·.names)).Nodup := by
  induction fuel generalizing around here names location found with
  | zero => cases walked
  | succ fuel ih =>
    rcases filesBelow_eq_ok.mp walked with ⟨entries, lists, listed, each, rfl⟩ | ⟨_, rfl⟩
    · cases tidy.child? listed with
      | directory distinct _ _ =>
        refine distinct_flatten each distinct fun l inside => ?_
        obtain ⟨e, _, here_found⟩ := exists_of_forall₂ each inside
        rcases filesAt_eq_ok.mp here_found with ⟨_, _, _, rfl⟩ | ⟨_, _, _, _, walked⟩
        · exact List.nodup_singleton _
        · exact ih walked
    · exact List.nodup_nil

/-- Below a directory stands a file that names lead to from it. -/
def HasFile (t : FileTree) (directory : String) (names : List String) : Prop :=
  ∃ place n, t.find? directory = some (place, n) ∧ t.root.HasFile place names

theorem mem_allFiles {directory : String} {found : List Found}
    (walked : t.allFiles directory = .ok found) {f : Found} :
    f ∈ found ↔ ∃ names, t.HasFile directory names ∧ f = ⟨names, Location.below directory names⟩ := by
  unfold allFiles at walked
  cases present : t.find? directory with
  | none =>
    rw [present] at walked
    obtain rfl := Except.ok.inj walked
    simp [HasFile, present]
  | some at_place =>
    obtain ⟨place, n⟩ := at_place
    rw [present] at walked
    rw [mem_filesBelow walked]
    simp [HasFile, present]

theorem allFiles_distinct (tidy : t.root.Tidy) {directory : String} {found : List Found}
    (walked : t.allFiles directory = .ok found) : (found.map (·.names)).Nodup := by
  unfold allFiles at walked
  split at walked
  · exact filesBelow_distinct tidy walked
  · obtain rfl := Except.ok.inj walked
    exact List.nodup_nil

end FileTree

end CloudAudit
