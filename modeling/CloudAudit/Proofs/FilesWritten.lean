import CloudAudit.Proofs.FilesBelow
import Mathlib.Data.List.Infix

set_option autoImplicit false

/- What is read where a file was written. A write changes one entry of one directory, so files
that are written into a directory without links stand there side by side, each under its name. -/
namespace CloudAudit

namespace FileNode

section

variable {entries : List (String × FileNode)} {name : String} {n : FileNode}

theorem lookup_setEntry_self : (setEntry name n entries).lookup name = some n := by
  induction entries with
  | nil => simp [setEntry]
  | cons e rest ih =>
    obtain ⟨k, old⟩ := e
    rw [setEntry]
    by_cases same : k = name
    · simp [same]
    · simp [same, List.lookup_cons, beq_false_of_ne (Ne.symm same), ih]

theorem lookup_setEntry_other {other : String} (apart : other ≠ name) :
    (setEntry name n entries).lookup other = entries.lookup other := by
  induction entries with
  | nil => simp [setEntry, List.lookup_cons, beq_false_of_ne apart]
  | cons e rest ih =>
    obtain ⟨k, old⟩ := e
    rw [setEntry]
    by_cases same : k = name
    · simp [same, List.lookup_cons, beq_false_of_ne apart]
    · simp [same, List.lookup_cons, ih]

end

section

variable {root other : FileNode} {place : List String} {entries : List (String × FileNode)}

theorem child?_concat (listed : root.child? place = some (.directory entries)) (name : String) :
    root.child? (place ++ [name]) = entries.lookup name := by
  induction place generalizing root with
  | nil =>
    obtain rfl := Option.some.inj listed
    rw [List.nil_append, child?_directory]
    cases entries.lookup name with
    | none => rfl
    | some n => rfl
  | cons first rest ih =>
    obtain ⟨outer, inner, rfl, found, listed⟩ := child?_cons_eq_some.mp listed
    rw [List.cons_append, child?_directory, found]
    exact ih listed

/-- What is put into a directory is an entry of it, beside those it had. -/
theorem child?_put (listed : root.child? place = some (.directory entries)) (n : FileNode)
    (name : String) :
    (put n root (place ++ [name])).child? place = some (.directory (setEntry name n entries)) := by
  induction place generalizing root with
  | nil =>
    obtain rfl := Option.some.inj listed
    rfl
  | cons first rest ih =>
    obtain ⟨outer, inner, rfl, found, listed⟩ := child?_cons_eq_some.mp listed
    rw [List.cons_append, put, child?_directory, lookup_setEntry_self, found]
    exact ih listed

/-- What stands where a node was: a directory where one was, and the link that was there; for a
file there may be anything. -/
def StaysAs : FileNode → Option FileNode → Prop
  | .file _, _ => True
  | .directory _, now => ∃ entries, now = some (.directory entries)
  | .link target, now => now = some (.link target)

theorem staysAs_self (n : FileNode) : n.StaysAs (some n) := by
  cases n with
  | file content => trivial
  | directory entries => exact ⟨entries, rfl⟩
  | link target => rfl

/-- Directories stay directories, and links stay as they are. -/
def Keeps (root other : FileNode) : Prop :=
  ∀ place n, root.child? place = some n → n.StaysAs (other.child? place)

theorem Keeps.refl (root : FileNode) : Keeps root root := by
  intro place n listed
  rw [listed]
  exact n.staysAs_self

theorem Keeps.file (content : ByteArray) (other : FileNode) : Keeps (.file content) other := by
  intro place n listed
  cases place with
  | nil =>
    cases listed
    trivial
  | cons first rest => cases listed

theorem Keeps.setEntry {name : String} {n : FileNode}
    (kept : ∀ old, entries.lookup name = some old → Keeps old n) :
    Keeps (.directory entries) (.directory (setEntry name n entries)) := by
  intro place m listed
  cases place with
  | nil =>
    cases listed
    exact ⟨_, rfl⟩
  | cons first rest =>
    obtain ⟨_, old, same, found, listed⟩ := child?_cons_eq_some.mp listed
    cases same
    rw [child?_directory]
    by_cases changed : first = name
    · subst changed
      rw [lookup_setEntry_self]
      exact kept old found rest m listed
    · rw [lookup_setEntry_other changed, found, Option.bind_some, listed]
      exact m.staysAs_self

theorem keeps_put (listed : root.child? place = some (.directory entries)) (n : FileNode)
    {name : String}
    (free : ∀ old, entries.lookup name = some old → ∃ content, old = .file content) :
    Keeps root (put n root (place ++ [name])) := by
  induction place generalizing root with
  | nil =>
    obtain rfl := Option.some.inj listed
    refine Keeps.setEntry fun old found => ?_
    obtain ⟨content, rfl⟩ := free old found
    exact .file content _
  | cons first rest ih =>
    obtain ⟨outer, inner, rfl, found, listed⟩ := child?_cons_eq_some.mp listed
    rw [List.cons_append, put, found]
    refine Keeps.setEntry fun old present => ?_
    cases found.symm.trans present
    exact ih listed

end

end FileNode

namespace FileTree

open FileNode

section

variable {root other : FileNode} {place : List String} {entries : List (String × FileNode)}

/-- A walk to a directory leads to one wherever directories and links are kept, and goes on from
there. -/
theorem walk_append (keeps : Keeps root other) {steps links : Nat} {here names : List String}
    (came : walk root steps links here names = some (place, .directory entries)) :
    (∃ now, other.child? place = some (.directory now)) ∧ ∃ left spare, ∀ more,
      walk other steps links here (names ++ more) = walk other (left + 1) spare place more := by
  induction steps generalizing links here names with
  | zero => cases came
  | succ steps ih =>
    cases names with
    | nil =>
      obtain ⟨n, listed, same⟩ := Option.map_eq_some_iff.mp came
      cases same
      exact ⟨keeps _ _ listed, steps, links, fun more => rfl⟩
    | cons name rest =>
      rw [walk] at came
      simp only [List.cons_append, walk]
      by_cases upward : name = ".."
      · simp only [upward, ↓reduceIte] at came ⊢
        exact ih came
      by_cases long : nameLimit < name.utf8ByteSize
      · simp only [upward, long, ↓reduceIte] at came
        cases came
      simp only [upward, long, ↓reduceIte] at came ⊢
      cases found : root.child? (here ++ [name]) with
      | none =>
        rw [found] at came
        cases came
      | some n =>
        rw [found] at came
        cases n with
        | file content =>
          by_cases last : rest.isEmpty = true
          · simp [last] at came
          · simp [last] at came
        | link target =>
          rw [show other.child? (here ++ [name]) = some (.link target) from keeps _ _ found]
          by_cases spent : links = 0
          · simp [spent] at came
          · simp only [spent, ↓reduceIte, ← List.append_assoc] at came ⊢
            exact ih came
        | directory inner =>
          obtain ⟨now, kept⟩ := keeps _ _ found
          rw [kept]
          exact ih came

theorem walk_kept (keeps : Keeps root other) {steps links : Nat} {here names : List String}
    (came : walk root steps links here names = some (place, .directory entries))
    {now : List (String × FileNode)} (listed : other.child? place = some (.directory now)) :
    walk other steps links here names = some (place, .directory now) := by
  obtain ⟨_, left, spare, goes_on⟩ := walk_append keeps came
  rw [← List.append_nil names, goes_on, walk, listed]
  rfl

theorem child?_of_walk {steps links : Nat} {here names : List String}
    (came : walk root steps links here names = some (place, .directory entries)) :
    root.child? place = some (.directory entries) := by
  obtain ⟨⟨now, listed⟩, _⟩ := walk_append (.refl root) came
  have again := walk_kept (.refl root) came listed
  rw [came] at again
  cases again
  exact listed

/-- A file of a directory is found under its name. -/
theorem walk_concat {steps links : Nat} {here names : List String}
    (came : walk root steps links here names = some (place, .directory entries)) {name : String}
    (named : IsName name) (short : name.utf8ByteSize ≤ nameLimit) {content : ByteArray}
    (entry : entries.lookup name = some (.file content)) :
    walk root steps links here (names ++ [name]) = some (place ++ [name], .file content) := by
  obtain ⟨_, left, spare, goes_on⟩ := walk_append (.refl root) came
  have found := (child?_concat (child?_of_walk came) name).trans entry
  rw [goes_on, walk, if_neg named.around, if_neg (Nat.not_lt.mpr short), found]
  rfl

end

section

variable {t after : FileTree} {location name text : String} {names : List String}

/-- An entry of a directory stands below it, unless its location is that of the top. -/
theorem inner?_join (inner : t.inner? location = some names) (named : IsName name) :
    t.inner? (Location.join location name) = some (names ++ [name]) ∨
      t.inner? (Location.join location name) = some [] := by
  have filled : location ≠ "" := by
    rintro rfl
    cases inner
  have joined := Location.names_join named.slash_free named.filled named.here location
  simp only [inner?, filled, Location.join_ne_empty named.slash_free filled, ↓reduceIte,
    Location.isAbsolute_join named.slash_free filled, joined, Bool.and_eq_true, decide_eq_true_eq,
    List.isPrefixOf_iff_prefix] at inner ⊢
  by_cases below : Location.isAbsolute location = Location.isAbsolute t.top ∧
      Location.names t.top <+: Location.names location
  · have farther : Location.isAbsolute location = Location.isAbsolute t.top ∧
        Location.names t.top <+: Location.names location ++ [name] :=
      ⟨below.1, below.2.trans (List.prefix_append _ _)⟩
    rw [if_pos below] at inner
    rw [if_pos farther, List.drop_append_of_le_length below.2.length_le, Option.some.inj inner]
    exact .inl rfl
  rw [if_neg below] at inner
  by_cases top : Location.isAbsolute location = Location.isAbsolute t.top ∧
      Location.names t.top <+: Location.names location ++ [name]
  · have whole : Location.names t.top = Location.names location ++ [name] :=
      (List.prefix_concat_iff.mp top.2).resolve_right fun inside => below ⟨top.1, inside⟩
    rw [if_pos top, whole, List.drop_length]
    exact .inr rfl
  · rw [if_neg top]
    by_cases absolute : Location.isAbsolute location = true
    · rw [if_pos absolute] at inner
      cases inner
    · rw [if_neg absolute] at inner ⊢
      rw [← Option.some.inj inner, List.append_assoc]
      exact .inl rfl

/-- Text that is written at the location of an entry stands there. -/
structure Stands (t : FileTree) (location : String) (names : List String) (name text : String) :
    Prop where
  inner : t.inner? (Location.join location name) = some (names ++ [name])
  short : name.utf8ByteSize ≤ nameLimit
  entry : ∃ place entries,
    walk t.root depthLimit linkLimit [] names = some (place, .directory entries) ∧
      entries.lookup name = some (.file text.toUTF8)

/-- What stands at a location is read there. -/
theorem Stands.read (stands : t.Stands location names name text) (named : IsName name) :
    t.readText? (Location.join location name) = some text := by
  obtain ⟨place, entries, came, entry⟩ := stands.entry
  have text_read : String.fromUTF8? text.toUTF8 = some text := dif_pos text.isValidUTF8
  rw [readText?, find?, stands.inner, Option.bind_some, walk_concat came named stands.short entry]
  exact text_read

theorem find?_eq (inner : t.inner? location = some names) :
    t.find? location = walk t.root depthLimit linkLimit [] names := by
  rw [find?, inner, Option.bind_some]

/-- No entry of the directory at a location is a link. -/
def Unlinked (t : FileTree) (location : String) : Prop :=
  ∀ place entries, t.find? location = some (place, .directory entries) →
    ∀ name target, entries.lookup name ≠ some (.link target)

/-- A file is written into a directory as an entry that was none before or was a file. -/
theorem write?_eq_some (inner : t.inner? location = some names) (unlinked : t.Unlinked location)
    (named : IsName name) :
    t.write? (Location.join location name) text = some after ↔
      t.inner? (Location.join location name) = some (names ++ [name]) ∧
      name.utf8ByteSize ≤ nameLimit ∧
      ∃ place entries,
        walk t.root depthLimit linkLimit [] names = some (place, .directory entries) ∧
        (∀ old, entries.lookup name = some old → ∃ content, old = .file content) ∧
        { t with root := put (.file text.toUTF8) t.root (place ++ [name]) } = after := by
  constructor
  · intro written
    rcases inner?_join inner named with joined | top
    · simp only [write?, joined, Option.bind_eq_bind, Option.bind_some, List.getLast?_concat,
        List.dropLast_concat] at written
      by_cases long : nameLimit < name.utf8ByteSize
      · rw [if_pos long] at written
        cases written
      rw [if_neg long] at written
      refine ⟨joined, Nat.le_of_not_lt long, ?_⟩
      rcases came : walk t.root depthLimit linkLimit [] names with _ | ⟨place, _ | entries | _⟩
      · simp only [came] at written
        cases written
      · simp only [came] at written
        cases written
      · simp only [came] at written
        refine ⟨place, entries, rfl, ?_⟩
        cases found : entries.lookup name with
        | none =>
          rw [found] at written
          refine ⟨fun old present => ?_, Option.some.inj written⟩
          cases present
        | some old =>
          rw [found] at written
          cases old with
          | file content =>
            refine ⟨fun old present => ?_, Option.some.inj written⟩
            exact ⟨content, (Option.some.inj present).symm⟩
          | directory inside => cases written
          | link target =>
            have here := (find?_eq inner).trans came
            exact absurd found (unlinked place entries here name target)
      · simp only [came] at written
        cases written
    · simp only [write?, top, Option.bind_eq_bind, Option.bind_some, List.getLast?_nil,
        Option.bind_none] at written
      cases written
  · rintro ⟨joined, short, place, entries, came, free, rfl⟩
    simp only [write?, joined, Option.bind_eq_bind, Option.bind_some, List.getLast?_concat,
      List.dropLast_concat, came, if_neg (Nat.not_lt.mpr short)]
    cases found : entries.lookup name with
    | none => rfl
    | some old =>
      obtain ⟨content, rfl⟩ := free old found
      rfl

theorem write?_isSome (inner : t.inner? location = some names) (unlinked : t.Unlinked location)
    (named : IsName name) :
    (t.write? (Location.join location name) text).isSome = true ↔
      t.inner? (Location.join location name) = some (names ++ [name]) ∧
      name.utf8ByteSize ≤ nameLimit ∧
      ∃ place entries,
        walk t.root depthLimit linkLimit [] names = some (place, .directory entries) ∧
        ∀ old, entries.lookup name = some old → ∃ content, old = .file content := by
  rw [Option.isSome_iff_exists]
  constructor
  · rintro ⟨after, written⟩
    obtain ⟨joined, short, place, entries, came, free, _⟩ :=
      (write?_eq_some inner unlinked named).mp written
    exact ⟨joined, short, place, entries, came, free⟩
  · rintro ⟨joined, short, place, entries, came, free⟩
    exact ⟨_, (write?_eq_some inner unlinked named).mpr
      ⟨joined, short, place, entries, came, free, rfl⟩⟩

/-- What a write into a directory changes: one file, and nothing of whether others stand there or
can be written. -/
structure Wrote (t after : FileTree) (location : String) (names : List String)
    (name text : String) : Prop where
  inner : ∀ anywhere, after.inner? anywhere = t.inner? anywhere
  unlinked : after.Unlinked location
  stands : after.Stands location names name text
  others : ∀ {other said}, other ≠ name → t.Stands location names other said →
    after.Stands location names other said
  room : ∀ {other said}, IsName other → other ≠ name →
    ((after.write? (Location.join location other) said).isSome = true ↔
      (t.write? (Location.join location other) said).isSome = true)

theorem wrote_of_write? (inner : t.inner? location = some names) (unlinked : t.Unlinked location)
    (named : IsName name)
    (written : t.write? (Location.join location name) text = some after) :
    Wrote t after location names name text := by
  obtain ⟨joined, short, place, entries, came, free, replaced⟩ :=
    (write?_eq_some inner unlinked named).mp written
  have kept : ∀ anywhere, after.inner? anywhere = t.inner? anywhere := by
    intro anywhere
    rw [← replaced]
    rfl
  have now : walk after.root depthLimit linkLimit [] names =
      some (place, .directory (setEntry name (.file text.toUTF8) entries)) := by
    have listed := child?_of_walk came
    rw [← replaced]
    exact walk_kept (keeps_put listed (.file text.toUTF8) free) came
      (child?_put listed (.file text.toUTF8) name)
  have inner_after := (kept location).trans inner
  have unlinked_after : after.Unlinked location := by
    intro place' entries' found other target
    cases now.symm.trans ((find?_eq inner_after).symm.trans found)
    by_cases same : other = name
    · rw [same, lookup_setEntry_self]
      simp
    · rw [lookup_setEntry_other same]
      exact unlinked place entries ((find?_eq inner).trans came) other target
  refine ⟨kept, unlinked_after, ⟨(kept _).trans joined, short, place, _, now,
    lookup_setEntry_self⟩, ?_, ?_⟩
  · intro other said apart stands
    obtain ⟨place', entries', came', entry⟩ := stands.entry
    cases came.symm.trans came'
    exact ⟨(kept _).trans stands.inner, stands.short, place, _, now,
      (lookup_setEntry_other apart).trans entry⟩
  · intro other said plain apart
    rw [write?_isSome inner_after unlinked_after plain, write?_isSome inner unlinked plain, kept]
    refine and_congr_right fun _ => and_congr_right fun _ => ?_
    constructor
    · rintro ⟨place', entries', came', free'⟩
      cases now.symm.trans came'
      rw [lookup_setEntry_other apart] at free'
      exact ⟨place, entries, came, free'⟩
    · rintro ⟨place', entries', came', free'⟩
      cases came.symm.trans came'
      refine ⟨place, _, now, ?_⟩
      rw [lookup_setEntry_other apart]
      exact free'

section

variable {files : List (String × String)}

/-- The steps that write files into the directory at a location. -/
def writes (location : String) (files : List (String × String)) : List FileStep :=
  files.map fun f => .write (Location.join location f.1) f.2

/-- Files with names of their own can be written into a directory together where each of them can
be written alone. -/
theorem perform_writes_eq_none (inner : t.inner? location = some names)
    (unlinked : t.Unlinked location) (named : ∀ f ∈ files, IsName f.1)
    (apart : (files.map Prod.fst).Nodup) :
    (perform (writes location files) t).2 = none ↔
      ∀ f ∈ files, (t.write? (Location.join location f.1) f.2).isSome = true := by
  induction files generalizing t with
  | nil => exact iff_of_true rfl (by simp)
  | cons f rest ih =>
    obtain ⟨own, others⟩ := List.forall_mem_cons.mp named
    rw [List.map_cons, List.nodup_cons] at apart
    rw [writes, List.map_cons, perform, step?, List.forall_mem_cons]
    cases written : t.write? (Location.join location f.1) f.2 with
    | none => simp
    | some middle =>
      have wrote := wrote_of_write? inner unlinked own written
      rw [Option.isSome_some, and_iff_right rfl]
      refine (ih ((wrote.inner location).trans inner) wrote.unlinked others apart.2).trans ?_
      refine forall₂_congr fun g member => wrote.room (others g member) fun same => apart.1 ?_
      exact same ▸ List.mem_map_of_mem member

/-- Files with names of their own that were written into a directory stand there together, beside
the other files of the directory. -/
theorem stands_of_perform (inner : t.inner? location = some names)
    (unlinked : t.Unlinked location) (named : ∀ f ∈ files, IsName f.1)
    (apart : (files.map Prod.fst).Nodup)
    (done : perform (writes location files) t = (after, none)) :
    (∀ f ∈ files, after.Stands location names f.1 f.2) ∧
    ∀ name said, name ∉ files.map Prod.fst → t.Stands location names name said →
      after.Stands location names name said := by
  induction files generalizing t with
  | nil =>
    cases done
    exact ⟨by simp, fun name said _ stands => stands⟩
  | cons f rest ih =>
    obtain ⟨own, others⟩ := List.forall_mem_cons.mp named
    rw [List.map_cons, List.nodup_cons] at apart
    rw [writes, List.map_cons, perform, step?] at done
    cases written : t.write? (Location.join location f.1) f.2 with
    | none =>
      rw [written] at done
      cases done
    | some middle =>
      rw [written] at done
      have wrote := wrote_of_write? inner unlinked own written
      obtain ⟨later, frame⟩ :=
        ih ((wrote.inner location).trans inner) wrote.unlinked others apart.2 done
      refine ⟨List.forall_mem_cons.mpr ⟨frame _ _ apart.1 wrote.stands, later⟩, ?_⟩
      intro name said missing stands
      rw [List.map_cons, List.mem_cons, not_or] at missing
      exact frame name said missing.2 (wrote.others missing.1 stands)

end

/-- Directories are made with locations read as before. -/
theorem inner?_makeDirectory (made : t.makeDirectory? location = some after) :
    (∀ anywhere, after.inner? anywhere = t.inner? anywhere) ∧
      ∃ names, t.inner? location = some names := by
  obtain ⟨names, inner, rest⟩ := Option.bind_eq_some_iff.mp made
  obtain ⟨root, _, rfl⟩ := Option.map_eq_some_iff.mp rest
  exact ⟨fun anywhere => rfl, names, inner⟩

end

end FileTree

end CloudAudit
