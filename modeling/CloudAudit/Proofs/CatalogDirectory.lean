import CloudAudit.Proofs.CatalogBatch
import CloudAudit.Proofs.CatalogPlan
import CloudAudit.Proofs.FilesRelisted
import CloudAudit.Proofs.TextTrim
import Mathlib.Data.List.Lex
import Mathlib.Data.String.Basic

set_option autoImplicit false

/- What a batch says of the catalog files below a directory. Each of them is loaded or rejected,
in the order of their names, and a file is rejected for its service only when one before it was
loaded with that service. -/
namespace CloudAudit

/-- Catalogs are compiled with a service that has no blanks at its ends. -/
theorem Catalog.trimmed_of_ofFile {t : FileTree} {location : String} {c : Catalog}
    (read : Catalog.ofFile t location = .ok c) : Text.trimmed c.service = c.service := by
  unfold Catalog.ofFile at read
  split at read
  · cases read
  split at read
  · cases read
  unfold Catalog.ofText at read
  split at read
  · obtain ⟨_, _, _, _, _, service, _⟩ := compile_eq_ok.mp read
    rw [service, Text.trimmed_trimmed]
  · cases read

namespace CatalogBatch

open FileTree

/-! The order of files. -/

theorem namesLe_iff {first second : List String} : namesLe first second = true ↔ first ≤ second := by
  rw [← not_lt]
  induction first generalizing second with
  | nil => simp [namesLe]
  | cons a rest ih =>
    cases second with
    | nil => simp [namesLe]
    | cons b others =>
      rw [namesLe, List.cons_lt_cons_iff]
      by_cases same : a = b
      · simp [same, ih]
      · simp only [same, Ne.symm same, ↓reduceIte, decide_eq_true_eq, false_and, or_false, not_lt]
        exact ⟨le_of_lt, fun below => lt_of_le_of_ne below same⟩

theorem mem_catalogFiles {found : List Found} {f : Found} :
    f ∈ catalogFiles found ↔ f ∈ found ∧ (CatalogFormat.ofLocation? f.location).isSome = true := by
  rw [catalogFiles, List.mem_mergeSort, List.mem_filter]

theorem catalogFiles_sorted {found : List Found} (distinct : (found.map (·.names)).Nodup) :
    (catalogFiles found).Pairwise fun f g => f.names < g.names := by
  have ascending : (catalogFiles found).Pairwise fun f g => namesLe f.names g.names = true := by
    apply List.pairwise_mergeSort
    · intro a b c first second
      exact namesLe_iff.mpr (le_trans (namesLe_iff.mp first) (namesLe_iff.mp second))
    · intro a b
      simpa only [Bool.or_eq_true, namesLe_iff] using le_total a.names b.names
  have apart : (catalogFiles found).Pairwise fun f g => f.names ≠ g.names := by
    have own : ((catalogFiles found).map (·.names)).Nodup :=
      ((List.mergeSort_perm _ _).map _).nodup_iff.mpr (distinct.sublist (List.filter_sublist.map _))
    exact List.pairwise_map.mp own
  exact (ascending.and apart).imp fun both => lt_of_le_of_ne (namesLe_iff.mp both.1) both.2

/-- The files are the same in whichever order they were found. -/
theorem catalogFiles_congr {found again : List Found} (distinct : (found.map (·.names)).Nodup)
    (distinct' : (again.map (·.names)).Nodup) (same : ∀ f, f ∈ found ↔ f ∈ again) :
    catalogFiles found = catalogFiles again := by
  have perm : (catalogFiles found).Perm (catalogFiles again) := by
    have shuffled : found.Perm again :=
      (List.perm_ext_iff_of_nodup (.of_map _ distinct) (.of_map _ distinct')).mpr same
    exact (List.mergeSort_perm _ _).trans
      ((shuffled.filter _).trans (List.mergeSort_perm _ _).symm)
  refine perm.eq_of_pairwise (fun f g _ _ below above => ?_) (catalogFiles_sorted distinct)
    (catalogFiles_sorted distinct')
  exact absurd below (lt_asymm above)

/-! Which files are loaded, and why the others are not. -/

variable {t : FileTree}

/-- A file before the one at a location was loaded with a service. -/
def TakenBefore (b : CatalogBatch) (location service : String) : Prop :=
  ∃ f ∈ b.loaded, Location.names f.1 < Location.names location ∧ f.2.service = service

/-- Why a batch says that a file is rejected. -/
def Rejected (t : FileTree) (b : CatalogBatch) (location : String) (e : CatalogError) : Prop :=
  Catalog.ofFile t location = .error e ∨ ∃ c, Catalog.ofFile t location = .ok c ∧
    e = .duplicateService c.service ∧ b.TakenBefore location c.service

theorem reason_unique {b : CatalogBatch} {location : String} {e e' : CatalogError}
    (first : b.Rejected t location e) (second : b.Rejected t location e') : e = e' := by
  rcases first with bad | ⟨c, read, rfl, _⟩ <;> rcases second with bad' | ⟨d, read', rfl, _⟩
  · exact Except.error.inj (bad.symm.trans bad')
  · cases bad.symm.trans read'
  · cases bad'.symm.trans read
  · rw [Except.ok.inj (read.symm.trans read')]

section

variable {files before after : List Found} {f : Found}

/-- Files in the order of the names in their locations. -/
def InOrder (files : List Found) : Prop :=
  files.Pairwise fun f g => Location.names f.location < Location.names g.location

/-- A service is taken from a file just by the files that are read before it. -/
theorem takenBefore_iff (sorted : InOrder (before ++ f :: after)) (service : String) :
    (readOn t {} (before ++ f :: after)).TakenBefore f.location service ↔
      ∃ d ∈ (readOn t {} before).catalogs, d.service = service := by
  have resumed : readOn t {} (before ++ f :: after) =
      readOn t (readOn t {} before) (f :: after) := List.foldl_append
  obtain ⟨more, grown, inside, _⟩ := (grows_readOn (readOn t {} before) (f :: after)).loaded
  obtain ⟨_, _, apart⟩ := List.pairwise_append.mp sorted
  rw [TakenBefore, resumed, grown]
  constructor
  · rintro ⟨⟨location, d⟩, member, earlier, same⟩
    rcases List.mem_append.mp member with first | later
    · exact ⟨d, List.mem_map.mpr ⟨_, first, rfl⟩, same⟩
    · -- Nothing that is read from this file on stands before it.
      obtain ⟨g, listed, rfl⟩ := List.mem_map.mp (inside.subset (List.mem_map_of_mem later))
      rcases List.mem_cons.mp listed with rfl | behind
      · exact absurd earlier (lt_irrefl _)
      · have above := List.rel_of_pairwise_cons (List.pairwise_append.mp sorted).2.1 behind
        exact absurd earlier (lt_asymm above)
  · rintro ⟨d, member, same⟩
    obtain ⟨⟨location, _⟩, first, rfl⟩ := List.mem_map.mp member
    obtain ⟨all, whole, known, _⟩ := (grows_readOn {} before).loaded
    rw [whole] at first
    obtain ⟨g, listed, rfl⟩ := List.mem_map.mp (known.subset (List.mem_map_of_mem first))
    refine ⟨_, List.mem_append_left _ (whole ▸ first), ?_, same⟩
    exact apart g listed f List.mem_cons_self

/-- What became of a catalog file, and why. -/
def Told (t : FileTree) (b : CatalogBatch) (location : String) : Prop :=
  (∃ c, (location, c) ∈ b.loaded ∧ Catalog.ofFile t location = .ok c ∧
    ¬b.TakenBefore location c.service) ∨
  ∃ e, (location, e) ∈ b.failed ∧ b.Rejected t location e

/-- Every file is loaded or rejected. -/
theorem told_of_mem (sorted : InOrder files) (member : f ∈ files) :
    (readOn t {} files).Told t f.location := by
  obtain ⟨before, after, rfl⟩ := List.append_of_mem member
  have taken := takenBefore_iff (t := t) sorted
  have resumed : readOn t {} (before ++ f :: after) = readOn t
      ((readOn t {} before).add f.location (Catalog.ofFile t f.location)) after := by
    rw [readOn, List.foldl_append]
    rfl
  have grows := @grows_readOn t
    ((readOn t {} before).add f.location (Catalog.ofFile t f.location)) after
  rw [← resumed] at grows
  obtain ⟨_, loaded, _⟩ := grows.loaded
  obtain ⟨_, failed, _⟩ := grows.failed
  rcases add_cases (readOn t {} before) f.location (Catalog.ofFile t f.location) with
    ⟨c, read, free, added⟩ | ⟨e, reason, added⟩
  · rw [added] at loaded
    refine .inl ⟨c, by rw [loaded]; simp, read, ?_⟩
    rw [taken]
    rintro ⟨d, known, same⟩
    exact free d known same
  · rw [added] at failed
    refine .inr ⟨e, by rw [failed]; simp, ?_⟩
    rcases reason with bad | ⟨c, read, rfl, known⟩
    · exact .inl bad
    · exact .inr ⟨c, read, rfl, (taken _).mpr known⟩

end

/-! All catalog files below a directory. -/

/-- A catalog file stands at a location below a directory. -/
def HasCatalog (t : FileTree) (directory location : String) : Prop :=
  ∃ names, t.HasFile directory names ∧ location = Location.below directory names ∧
    (CatalogFormat.ofLocation? location).isSome = true

section

variable {directory : String} {found : List Found}

theorem hasCatalog_iff (walked : t.allFiles directory = .ok found) (location : String) :
    HasCatalog t directory location ↔ location ∈ (catalogFiles found).map (·.location) := by
  rw [HasCatalog, List.mem_map]
  constructor
  · rintro ⟨names, has, rfl, format⟩
    exact ⟨_, mem_catalogFiles.mpr ⟨(mem_allFiles walked).mpr ⟨names, has, rfl⟩, format⟩, rfl⟩
  · rintro ⟨f, member, rfl⟩
    obtain ⟨listed, format⟩ := mem_catalogFiles.mp member
    obtain ⟨names, has, rfl⟩ := (mem_allFiles walked).mp listed
    exact ⟨names, has, rfl, format⟩

theorem catalogFiles_inOrder (tidy : t.root.Tidy) (walked : t.allFiles directory = .ok found) :
    InOrder (catalogFiles found) := by
  refine (catalogFiles_sorted (allFiles_distinct tidy walked)).imp_of_mem ?_
  intro f g first second below
  have told : ∀ h ∈ catalogFiles found,
      Location.names h.location = Location.names directory ++ h.names := by
    intro h member
    obtain ⟨names, ⟨_, _, _, has⟩, rfl⟩ := (mem_allFiles walked).mp (mem_catalogFiles.mp member).1
    exact Location.names_below (has.named tidy) directory
  rw [told f first, told g second]
  exact List.append_left_lt below

theorem catalogFiles_relisted (tidy : t.root.Tidy) {other : FileNode}
    (relisted : t.root.Relisted other) {again : List Found}
    (walked : t.allFiles directory = .ok found)
    (walked' : (t.withRoot other).allFiles directory = .ok again) :
    catalogFiles again = catalogFiles found := by
  refine catalogFiles_congr (allFiles_distinct (relisted.tidy tidy) walked')
    (allFiles_distinct tidy walked) fun f => ?_
  simp only [mem_allFiles walked, mem_allFiles walked', hasFile_relisted relisted]

/-- The order in which directories list their entries does not matter to a batch. -/
theorem ofDirectory_relisted (tidy : t.root.Tidy) {other : FileNode}
    (relisted : t.root.Relisted other) (present : t.isDirectory directory = true)
    (walked : t.allFiles directory = .ok found) :
    ofDirectory (t.withRoot other) directory = ofDirectory t directory := by
  obtain ⟨again, walked'⟩ := allFiles_relisted relisted walked
  have read : ∀ location, Catalog.ofFile (t.withRoot other) location =
      Catalog.ofFile t location := by
    intro location
    rw [Catalog.ofFile, Catalog.ofFile, readText?_relisted relisted]
  have present' := (isDirectory_relisted relisted directory).trans present
  rw [ofDirectory_eq present walked, ofDirectory_eq present' walked',
    catalogFiles_relisted tidy relisted walked walked']
  simp only [readOn, read]

end

/-- Locations in the order of their names, none of them twice. -/
def Ascending (locations : List String) : Prop :=
  locations.Pairwise fun l m => Location.names l < Location.names m

/-- What a batch says of the catalog files below a directory: each of them is loaded or rejected,
once, and why. -/
structure Accounts (t : FileTree) (directory : String) (b : CatalogBatch) : Prop where
  whole : ∀ location, location ∈ b.loaded.map Prod.fst ++ b.failed.map Prod.fst ↔
    HasCatalog t directory location
  once : (b.loaded.map Prod.fst ++ b.failed.map Prod.fst).Nodup
  loaded_ascending : Ascending (b.loaded.map Prod.fst)
  failed_ascending : Ascending (b.failed.map Prod.fst)
  services : (b.catalogs.map (·.service)).Nodup
  trimmed : ∀ c ∈ b.catalogs, Text.trimmed c.service = c.service
  loaded : ∀ location c, (location, c) ∈ b.loaded ↔ HasCatalog t directory location ∧
    Catalog.ofFile t location = .ok c ∧ ¬b.TakenBefore location c.service
  failed : ∀ location e, (location, e) ∈ b.failed ↔ HasCatalog t directory location ∧
    b.Rejected t location e

section

variable {directory : String} {found : List Found}

/-- A location is with one result in a list whose locations differ. -/
theorem result_unique {α : Type} {l : List (String × α)} (own : (l.map Prod.fst).Nodup)
    {location : String} {a b : α} (first : (location, a) ∈ l) (second : (location, b) ∈ l) :
    a = b :=
  (Prod.mk.inj (List.inj_on_of_nodup_map own first second rfl)).2

section

variable {b : CatalogBatch} {location : String}

/-- What is loaded is told as loaded, where no file is told twice. -/
theorem loaded_iff (once : (b.loaded.map Prod.fst ++ b.failed.map Prod.fst).Nodup)
    (told : b.Told t location) (c : Catalog) : (location, c) ∈ b.loaded ↔
      Catalog.ofFile t location = .ok c ∧ ¬b.TakenBefore location c.service := by
  obtain ⟨own, _, apart⟩ := List.nodup_append.mp once
  constructor
  · intro member
    rcases told with ⟨d, listed, read, free⟩ | ⟨e, listed, _⟩
    · obtain rfl := result_unique own listed member
      exact ⟨read, free⟩
    · exact absurd rfl (apart _ (List.mem_map_of_mem member) _ (List.mem_map_of_mem listed))
  · rintro ⟨read, free⟩
    rcases told with ⟨d, listed, same, _⟩ | ⟨_, _, bad | ⟨d, same, _, taken⟩⟩
    · rwa [Except.ok.inj (read.symm.trans same)]
    · cases read.symm.trans bad
    · obtain rfl := Except.ok.inj (read.symm.trans same)
      exact absurd taken free

theorem failed_iff (once : (b.loaded.map Prod.fst ++ b.failed.map Prod.fst).Nodup)
    (told : b.Told t location) (e : CatalogError) :
    (location, e) ∈ b.failed ↔ b.Rejected t location e := by
  obtain ⟨_, own, apart⟩ := List.nodup_append.mp once
  constructor
  · intro member
    rcases told with ⟨_, listed, _⟩ | ⟨e', listed, reason⟩
    · exact absurd rfl (apart _ (List.mem_map_of_mem listed) _ (List.mem_map_of_mem member))
    · obtain rfl := result_unique own listed member
      exact reason
  · intro reason
    rcases told with ⟨c, _, read, free⟩ | ⟨e', listed, reason'⟩
    · rcases reason with bad | ⟨d, same, _, taken⟩
      · cases read.symm.trans bad
      · obtain rfl := Except.ok.inj (read.symm.trans same)
        exact absurd taken free
    · rwa [reason_unique reason reason']

end

theorem accounts_readOn (tidy : t.root.Tidy) (walked : t.allFiles directory = .ok found) :
    Accounts t directory (readOn t {} (catalogFiles found)) := by
  have sorted := catalogFiles_inOrder tidy walked
  have grows := grows_readOn (t := t) {} (catalogFiles found)
  have told : ∀ f ∈ catalogFiles found, (readOn t {} (catalogFiles found)).Told t f.location :=
    fun f member => told_of_mem sorted member
  generalize readOn t {} (catalogFiles found) = b at grows told ⊢
  obtain ⟨loaded, whole_loaded, among, compiled⟩ := grows.loaded
  obtain ⟨failed, whole_failed, among', _⟩ := grows.failed
  obtain rfl : b.loaded = loaded := whole_loaded
  obtain rfl : b.failed = failed := whole_failed
  have each : (b.loaded.map Prod.fst ++ b.failed.map Prod.fst).Perm
      ((catalogFiles found).map (·.location)) := grows.each
  have ascending : Ascending ((catalogFiles found).map (·.location)) := List.pairwise_map.mpr sorted
  have once : (b.loaded.map Prod.fst ++ b.failed.map Prod.fst).Nodup := by
    refine each.nodup_iff.mpr (ascending.imp fun below same => ?_)
    rw [same] at below
    exact lt_irrefl _ below
  have whole : ∀ location, location ∈ b.loaded.map Prod.fst ++ b.failed.map Prod.fst ↔
      HasCatalog t directory location := by
    intro location
    rw [hasCatalog_iff walked, each.mem_iff]
  have told_of_has : ∀ location, HasCatalog t directory location → b.Told t location := by
    intro location has
    obtain ⟨f, member, rfl⟩ := List.mem_map.mp ((hasCatalog_iff walked location).mp has)
    exact told f member
  refine ⟨whole, once, ascending.sublist among, ascending.sublist among',
    grows.services List.nodup_nil, ?_, ?_, ?_⟩
  · intro c member
    obtain ⟨f, listed, rfl⟩ := List.mem_map.mp member
    exact Catalog.trimmed_of_ofFile (compiled f listed)
  · intro location c
    have named : (location, c) ∈ b.loaded → HasCatalog t directory location := fun member =>
      (whole location).mp (List.mem_append_left _ (List.mem_map_of_mem member))
    rw [← and_iff_right_of_imp named]
    exact and_congr_right fun has => loaded_iff once (told_of_has location has) c
  · intro location e
    have named : (location, e) ∈ b.failed → HasCatalog t directory location := fun member =>
      (whole location).mp (List.mem_append_right _ (List.mem_map_of_mem member))
    rw [← and_iff_right_of_imp named]
    exact and_congr_right fun has => failed_iff once (told_of_has location has) e

/-- Where a directory can be walked, its batch says of every catalog file below it whether it was
loaded, or why it was not, in the order of the files. The order in which directories list their
entries does not matter to it. -/
theorem directory_accounted (tidy : t.root.Tidy) (present : t.isDirectory directory = true)
    (walked : t.allFiles directory = .ok found) :
    ∃ b, ofDirectory t directory = .ok b ∧ Accounts t directory b ∧
      b.loaded.length + b.failed.length = (catalogFiles found).length ∧
      ∀ other, t.root.Relisted other → ofDirectory (t.withRoot other) directory = .ok b := by
  have read := ofDirectory_eq present walked
  refine ⟨_, read, accounts_readOn tidy walked, ?_, fun other relisted => ?_⟩
  · exact fileCount_readOn (catalogFiles found)
  · rw [ofDirectory_relisted tidy relisted present walked, read]

end

/-- Entries of a directory with one catalog under two names, an empty document and a note. -/
def shelfEntries : List (String × FileNode) :=
  [("note.txt", .file "draft".toUTF8), ("bad.json", .file "\x7b\x7d".toUTF8),
    ("net", .directory [("vpc.json",
      .file "\x7b\"provider\":\"p\",\"service\":\" s \"\x7d".toUTF8)]),
    ("a.json", .link ["net", "vpc.json"])]

def shelf : FileTree := { top := "/srv", root := .directory shelfEntries }

theorem shelf_tidy : shelf.root.Tidy := by
  refine .directory (by decide) (by decide) ?_
  simp only [shelfEntries, List.forall_mem_cons, List.not_mem_nil, false_imp_iff, implies_true,
    and_true]
  refine ⟨.file _, .file _, .directory (by decide) (by decide) ?_, .link _⟩
  intro e member
  rw [List.mem_singleton.mp member]
  exact .file _

/-- What a walk finds there. -/
def shelfFound : List Found :=
  [⟨["note.txt"], "/srv/note.txt"⟩, ⟨["bad.json"], "/srv/bad.json"⟩,
    ⟨["net", "vpc.json"], "/srv/net/vpc.json"⟩, ⟨["a.json"], "/srv/a.json"⟩]

theorem shelf_walked : shelf.allFiles "/srv" = .ok shelfFound := rfl

theorem shelf_has {f : Found} (listed : f ∈ shelfFound)
    (format : (CatalogFormat.ofLocation? f.location).isSome = true) :
    HasCatalog shelf "/srv" f.location :=
  (hasCatalog_iff shelf_walked _).mpr
    (List.mem_map_of_mem (mem_catalogFiles.mpr ⟨listed, format⟩))

theorem shelf_compiled {location : String}
    (named : location = "/srv/a.json" ∨ location = "/srv/net/vpc.json") :
    ∃ c, Catalog.ofFile shelf location = .ok c ∧ c.service = "s" := by
  have service : (Catalog.ofFile shelf location).toOption.map (·.service) = some "s" := by
    rcases named with rfl | rfl <;> decide +kernel
  cases read : Catalog.ofFile shelf location with
  | error e =>
    rw [read] at service
    cases service
  | ok c =>
    rw [read] at service
    exact ⟨c, rfl, Option.some.inj service⟩

/-- The catalog is loaded under the first of its names, though a walk comes to the other first. -/
theorem shelf_accounted :
    shelf.root.Tidy ∧ shelf.isDirectory "/srv" = true ∧ shelf.allFiles "/srv" = .ok shelfFound ∧
    ∃ b c, ofDirectory shelf "/srv" = .ok b ∧
      ofDirectory (shelf.withRoot (.directory shelfEntries.reverse)) "/srv" = .ok b ∧
      ("/srv/a.json", c) ∈ b.loaded ∧ c.service = "s" ∧
      ("/srv/bad.json", .parse "/srv/bad.json" none) ∈ b.failed ∧
      ("/srv/net/vpc.json", .duplicateService "s") ∈ b.failed ∧
      b.loaded.length + b.failed.length = (catalogFiles shelfFound).length := by
  have present : shelf.isDirectory "/srv" = true := by decide +kernel
  obtain ⟨b, read, accounts, count, reordered⟩ :=
    directory_accounted shelf_tidy present shelf_walked
  obtain ⟨c, compiled, service⟩ := shelf_compiled (.inl rfl)
  obtain ⟨d, compiled', service'⟩ := shelf_compiled (.inr rfl)
  have free : ¬b.TakenBefore "/srv/a.json" c.service := by
    rintro ⟨f, member, earlier, _⟩
    have has := (accounts.whole f.1).mp (List.mem_append_left _ (List.mem_map_of_mem member))
    obtain ⟨g, listed, same⟩ := List.mem_map.mp ((hasCatalog_iff shelf_walked _).mp has)
    obtain ⟨found, format⟩ := mem_catalogFiles.mp listed
    have last : ∀ g ∈ shelfFound, (CatalogFormat.ofLocation? g.location).isSome = true →
        ¬Location.names g.location < Location.names "/srv/a.json" := by
      decide +kernel
    exact last g found format (same ▸ earlier)
  have first : ("/srv/a.json", c) ∈ b.loaded :=
    (accounts.loaded _ _).mpr
      ⟨shelf_has (f := ⟨["a.json"], _⟩) (by decide) (by decide +kernel), compiled, free⟩
  have order : Location.names "/srv/a.json" < Location.names "/srv/net/vpc.json" := by
    decide +kernel
  have taken : b.TakenBefore "/srv/net/vpc.json" d.service :=
    ⟨_, first, order, service.trans service'.symm⟩
  refine ⟨shelf_tidy, present, shelf_walked, b, c, read,
    reordered _ (.of_perm shelf_tidy (List.reverse_perm _).symm), first, service, ?_, ?_, count⟩
  · exact (accounts.failed _ _).mpr
      ⟨shelf_has (f := ⟨["bad.json"], _⟩) (by decide) (by decide +kernel), .inl rfl⟩
  · refine (accounts.failed _ _).mpr
      ⟨shelf_has (f := ⟨["net", "vpc.json"], _⟩) (by decide) (by decide +kernel), .inr ?_⟩
    exact ⟨d, compiled', by rw [service'], taken⟩

end CatalogBatch

end CloudAudit
