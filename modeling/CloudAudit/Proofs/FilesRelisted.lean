import CloudAudit.Catalog.Directory
import CloudAudit.Proofs.FilesBelow

set_option autoImplicit false

/- The order in which directories list their entries. It does not matter to what stands at a
location, nor to which files are below a directory. -/
namespace CloudAudit

namespace FileNode

/-- The same files, links and directories, with the entries of directories in any order. -/
inductive Relisted : FileNode → FileNode → Prop where
  | file (content : ByteArray) : Relisted (.file content) (.file content)
  | link (target : List String) : Relisted (.link target) (.link target)
  | directory {entries others : List (String × FileNode)}
    (names : (entries.map Prod.fst).Perm (others.map Prod.fst))
    (each : ∀ name n m, (name, n) ∈ entries → (name, m) ∈ others → Relisted n m) :
    Relisted (.directory entries) (.directory others)

theorem Relisted.symm {n m : FileNode} (relisted : Relisted n m) : Relisted m n := by
  induction relisted with
  | file content => exact .file content
  | link target => exact .link target
  | directory names _ ih =>
    exact .directory names.symm fun name n m first second => ih name m n second first

theorem Relisted.refl {n : FileNode} (tidy : n.Tidy) : Relisted n n := by
  induction tidy with
  | file content => exact .file content
  | link target => exact .link target
  | directory distinct _ _ ih =>
    refine .directory (.refl _) fun name n m first second => ?_
    obtain ⟨_, rfl⟩ := Prod.mk.inj (List.inj_on_of_nodup_map distinct first second rfl)
    exact ih _ first

/-- The entries of a tidy directory may be listed in any order. -/
theorem Relisted.of_perm {entries others : List (String × FileNode)}
    (tidy : (FileNode.directory entries).Tidy) (perm : entries.Perm others) :
    Relisted (.directory entries) (.directory others) := by
  cases Relisted.refl tidy with
  | directory _ each =>
    exact .directory (perm.map _) fun name n m first second =>
      each name n m first (perm.mem_iff.mpr second)

/-- No name is lost or doubled when directories are listed in another order. -/
theorem Relisted.tidy {n m : FileNode} (relisted : Relisted n m) (tidy : n.Tidy) : m.Tidy := by
  induction relisted with
  | file content => exact .file content
  | link target => exact .link target
  | @directory entries others names _ ih =>
    cases tidy with
    | directory distinct named each =>
      have listed : ∀ e ∈ others, ∃ n, (e.1, n) ∈ entries := by
        intro e member
        obtain ⟨⟨_, n⟩, entry, rfl⟩ :=
          List.mem_map.mp (names.mem_iff.mpr (List.mem_map_of_mem member))
        exact ⟨n, entry⟩
      refine .directory (names.nodup_iff.mp distinct) (fun e member => ?_) fun e member => ?_
      · obtain ⟨n, entry⟩ := listed e member
        exact named (e.1, n) entry
      · obtain ⟨n, entry⟩ := listed e member
        exact ih _ n e.2 entry member (each _ entry)

section

variable {root other : FileNode}

theorem Relisted.lookup {entries others : List (String × FileNode)}
    (relisted : Relisted (.directory entries) (.directory others)) (name : String) :
    Option.Rel Relisted (entries.lookup name) (others.lookup name) := by
  have absent : ∀ {list : List (String × FileNode)},
      list.lookup name = none ↔ name ∉ list.map Prod.fst := by
    intro list
    rw [List.lookup_eq_none_iff, List.mem_map]
    constructor
    · rintro differ ⟨e, member, rfl⟩
      simpa using differ e member
    · intro missing e member
      simpa using fun same => missing ⟨e, member, same.symm⟩
  cases relisted with
  | directory names each =>
    cases first : entries.lookup name with
    | none =>
      have second : others.lookup name = none :=
        absent.mpr fun inside => absent.mp first (names.mem_iff.mpr inside)
      rw [second]
      exact .none
    | some n =>
      cases second : others.lookup name with
      | none =>
        have missing : entries.lookup name = none :=
          absent.mpr fun inside => absent.mp second (names.mem_iff.mp inside)
        rw [missing] at first
        cases first
      | some m => exact .some (each name n m (mem_of_lookup first) (mem_of_lookup second))

theorem Relisted.child? (relisted : Relisted root other) (names : List String) :
    Option.Rel Relisted (root.child? names) (other.child? names) := by
  induction names generalizing root other with
  | nil => exact .some relisted
  | cons name rest ih =>
    cases relisted with
    | file content => exact .none
    | link target => exact .none
    | @directory entries others names each =>
      have looked := Relisted.lookup (.directory names each) name
      simp only [FileNode.child?]
      cases first : entries.lookup name <;> cases second : others.lookup name <;>
        rw [first, second] at looked <;> cases looked
      · exact .none
      · next same => exact ih same

/-- Two walks that come to the same place, where one lists what the other lists. -/
def SamePlace (a b : List String × FileNode) : Prop := a.1 = b.1 ∧ Relisted a.2 b.2

theorem Relisted.walk (relisted : Relisted root other) (steps links : Nat)
    (here names : List String) :
    Option.Rel SamePlace (FileTree.walk root steps links here names)
      (FileTree.walk other steps links here names) := by
  induction steps generalizing links here names with
  | zero => exact .none
  | succ steps ih =>
    cases names with
    | nil =>
      have last := relisted.child? here
      simp only [FileTree.walk]
      generalize root.child? here = one, other.child? here = two at last
      cases last with
      | none => exact .none
      | some same => exact .some ⟨rfl, same⟩
    | cons name rest =>
      simp only [FileTree.walk]
      by_cases upward : name = ".."
      · rw [if_pos upward, if_pos upward]
        exact ih _ _ _
      rw [if_neg upward, if_neg upward]
      by_cases long : FileTree.nameLimit < name.utf8ByteSize
      · rw [if_pos long, if_pos long]
        exact .none
      rw [if_neg long, if_neg long]
      have next := relisted.child? (here ++ [name])
      generalize root.child? (here ++ [name]) = one, other.child? (here ++ [name]) = two at next
      cases next with
      | none => exact .none
      | some same =>
        cases same with
        | file content =>
          by_cases last : rest.isEmpty = true
          · simp only [last, ↓reduceIte]
            exact .some ⟨rfl, .file content⟩
          · simp only [last, Bool.false_eq_true, ↓reduceIte]
            exact .none
        | link target =>
          by_cases spent : links = 0
          · simp only [spent, ↓reduceIte]
            exact .none
          · simp only [spent, ↓reduceIte]
            exact ih _ _ _
        | directory _ _ => exact ih _ _ _

theorem Relisted.leadsTo? (relisted : Relisted root other) {n m : FileNode} (entry : Relisted n m)
    (place : List String) :
    Option.Rel SamePlace (root.leadsTo? place n) (other.leadsTo? place m) := by
  cases entry with
  | file content => exact .some ⟨rfl, .file content⟩
  | link target => exact relisted.walk _ _ _ _
  | directory names each => exact .some ⟨rfl, .directory names each⟩

theorem leadsTo_of_rel {one two : Option (List String × FileNode)} {place : List String}
    {n : FileNode} (same : Option.Rel SamePlace one two) (leads : one = some (place, n)) :
    ∃ m, two = some (place, m) ∧ Relisted n m := by
  subst leads
  cases same with
  | @some _ b both =>
    obtain ⟨at_place, m⟩ := b
    obtain ⟨rfl, relisted⟩ := both
    exact ⟨m, rfl, relisted⟩

/-- An entry of a directory is listed in the other order too. -/
theorem Relisted.entry (relisted : Relisted root other) {here : List String}
    {entries : List (String × FileNode)} (listed : root.child? here = some (.directory entries)) :
    ∃ others, other.child? here = some (.directory others) ∧
      Relisted (.directory entries) (.directory others) := by
  have same := relisted.child? here
  rw [listed] at same
  generalize other.child? here = found at same
  cases same with
  | some same =>
    cases same with
    | directory names each => exact ⟨_, rfl, .directory names each⟩

theorem Relisted.mem {entries others : List (String × FileNode)}
    (relisted : Relisted (.directory entries) (.directory others)) {e : String × FileNode}
    (entry : e ∈ entries) : ∃ m, (e.1, m) ∈ others ∧ Relisted e.2 m := by
  cases relisted with
  | directory names each =>
    obtain ⟨⟨_, m⟩, member, rfl⟩ :=
      List.mem_map.mp (names.mem_iff.mp (List.mem_map_of_mem entry))
    exact ⟨m, member, each _ _ _ entry member⟩

theorem Relisted.hasFile (relisted : Relisted root other) {here names : List String}
    (has : root.HasFile here names) : other.HasFile here names := by
  induction has with
  | file listed entry leads =>
    obtain ⟨others, listed, same⟩ := relisted.entry listed
    obtain ⟨m, entry, kind⟩ := same.mem entry
    obtain ⟨_, leads, is_file⟩ := leadsTo_of_rel (relisted.leadsTo? kind _) leads
    cases is_file
    exact .file listed entry leads
  | inside listed entry leads _ ih =>
    obtain ⟨others, listed, same⟩ := relisted.entry listed
    obtain ⟨m, entry, kind⟩ := same.mem entry
    obtain ⟨_, leads, is_directory⟩ := leadsTo_of_rel (relisted.leadsTo? kind _) leads
    cases is_directory
    exact .inside listed entry leads ih

end

end FileNode

namespace FileTree

open FileNode

variable {t : FileTree} {other : FileNode}

/-- The tree with another root below the same top. -/
def withRoot (t : FileTree) (root : FileNode) : FileTree := { t with root }

/-- What can be walked in one order can be walked in another. -/
theorem filesBelow_relisted (relisted : Relisted t.root other) {fuel : Nat}
    {around : List (List String)} {here names : List String} {location : String}
    {found : List Found} (walked : filesBelow t fuel around here names location = .ok found) :
    ∃ again, filesBelow (t.withRoot other) fuel around here names location = .ok again := by
  induction fuel generalizing around here names location found with
  | zero => cases walked
  | succ fuel ih =>
    have entry_again : ∀ {e : String × FileNode} {m : FileNode} {l : List Found},
        Relisted e.2 m → filesAt t fuel around here names location e = .ok l →
          ∃ again, filesAt (t.withRoot other) fuel around here names location (e.1, m) =
            .ok again := by
      intro e m l kind at_entry
      have place := relisted.leadsTo? kind (here ++ [e.1])
      rcases filesAt_eq_ok.mp at_entry with ⟨_, content, leads, _⟩ | ⟨_, inner, leads, apart, below⟩
      · obtain ⟨_, leads, is_file⟩ := leadsTo_of_rel place leads
        cases is_file
        exact ⟨_, filesAt_eq_ok.mpr (.inl ⟨_, content, leads, rfl⟩)⟩
      · obtain ⟨_, leads, is_directory⟩ := leadsTo_of_rel place leads
        cases is_directory
        obtain ⟨again, below⟩ := ih below
        refine ⟨again, filesAt_eq_ok.mpr (.inr ⟨_, _, leads, ?_, below⟩)⟩
        rintro ⟨target, rfl⟩
        generalize linked : e.2 = n at kind
        cases kind
        exact apart ⟨target, linked⟩
    rcases filesBelow_eq_ok.mp walked with ⟨entries, lists, listed, each, _⟩ | ⟨never, _⟩
    · obtain ⟨others, listed, same⟩ := relisted.entry listed
      obtain ⟨again, each⟩ : ∃ again, List.Forall₂ (fun e l =>
          filesAt (t.withRoot other) fuel around here names location e = .ok l) others again := by
        rw [exists_forall₂]
        intro e member
        obtain ⟨n, entry, kind⟩ := same.symm.mem member
        obtain ⟨l, _, at_entry⟩ := exists_of_forall₂ each.flip entry
        exact entry_again (e := (e.1, n)) kind.symm at_entry
      exact ⟨_, filesBelow_eq_ok.mpr (.inl ⟨others, again, listed, each, rfl⟩)⟩
    · refine ⟨[], filesBelow_eq_ok.mpr (.inr ⟨fun others listed => ?_, rfl⟩)⟩
      obtain ⟨entries, listed, _⟩ := relisted.symm.entry listed
      exact never entries listed

theorem find?_relisted (relisted : Relisted t.root other) (location : String) :
    Option.Rel SamePlace (t.find? location) ((t.withRoot other).find? location) := by
  unfold find?
  change Option.Rel SamePlace ((t.inner? location).bind _) ((t.inner? location).bind _)
  cases t.inner? location with
  | none => exact .none
  | some names => exact relisted.walk _ _ _ _

theorem allFiles_relisted (relisted : Relisted t.root other) {directory : String}
    {found : List Found} (walked : t.allFiles directory = .ok found) :
    ∃ again, (t.withRoot other).allFiles directory = .ok again := by
  have same := find?_relisted relisted directory
  unfold allFiles at walked ⊢
  generalize t.find? directory = one, (t.withRoot other).find? directory = two at same walked
  cases same with
  | none => exact ⟨_, rfl⟩
  | @some a b same =>
    obtain ⟨_, n⟩ := a
    obtain ⟨_, m⟩ := b
    obtain ⟨rfl, _⟩ := same
    exact filesBelow_relisted relisted walked

theorem hasFile_relisted (relisted : Relisted t.root other) (directory : String)
    (names : List String) : (t.withRoot other).HasFile directory names ↔
      t.HasFile directory names := by
  have same := find?_relisted relisted directory
  unfold HasFile
  generalize t.find? directory = one, (t.withRoot other).find? directory = two at same
  cases same with
  | none => simp
  | @some a b same =>
    obtain ⟨place, n⟩ := a
    obtain ⟨_, m⟩ := b
    obtain ⟨rfl, _⟩ := same
    have equal : (t.withRoot other).root.HasFile place names ↔ t.root.HasFile place names :=
      ⟨relisted.symm.hasFile, relisted.hasFile⟩
    simp [equal]

theorem isDirectory_relisted (relisted : Relisted t.root other) (location : String) :
    (t.withRoot other).isDirectory location = t.isDirectory location := by
  have same := find?_relisted relisted location
  unfold isDirectory
  generalize t.find? location = one, (t.withRoot other).find? location = two at same
  cases same with
  | none => rfl
  | @some a b same =>
    obtain ⟨_, n⟩ := a
    obtain ⟨_, m⟩ := b
    obtain ⟨rfl, kind⟩ := same
    cases kind <;> rfl

theorem readText?_relisted (relisted : Relisted t.root other) (location : String) :
    (t.withRoot other).readText? location = t.readText? location := by
  have same := find?_relisted relisted location
  unfold readText?
  generalize t.find? location = one, (t.withRoot other).find? location = two at same
  cases same with
  | none => rfl
  | @some a b same =>
    obtain ⟨_, n⟩ := a
    obtain ⟨_, m⟩ := b
    obtain ⟨rfl, kind⟩ := same
    cases kind <;> rfl

end FileTree

end CloudAudit
