import CloudAudit.Proofs.FilesWritten
import CloudAudit.Report.Artifact
import Mathlib.Data.List.Infix
import Mathlib.Data.List.Nodup
import Mathlib.Data.List.Perm.Subperm
import Mathlib.Data.Nat.Find

set_option autoImplicit false

/- Names of the files of a scan. Safe characters replace all others, so texts that differ may
ask for one stem, and a stem with a number may be what a later unit asks for. Each unit is
given a stem that none before it has, and the files of the scan all have names of their own, under
which they are read back once the scan is stored. -/
namespace CloudAudit

/-- Letters, digits, dots, underscores and hyphens. -/
def FileChar (c : Char) : Prop :=
  ('A' ≤ c ∧ c ≤ 'Z') ∨ ('a' ≤ c ∧ c ≤ 'z') ∨ ('0' ≤ c ∧ c ≤ '9') ∨ c = '.' ∨ c = '_' ∨ c = '-'

/-- Texts made of such characters only. -/
def FileText (text : String) : Prop := ∀ c ∈ text.toList, FileChar c

theorem FileText.append {first second : String} (safe : FileText first) (also : FileText second) :
    FileText (first ++ second) := by
  intro c member
  rw [String.toList_append, List.mem_append] at member
  exact member.elim (safe c) (also c)

theorem FileText.slash_free {text : String} (safe : FileText text) : '/' ∉ text.toList := by
  intro member
  have plain := safe '/' member
  simp [FileChar] at plain

namespace Stem

theorem fileChar_of_isAlphanum {c : Char} (plain : c.isAlphanum = true) : FileChar c := by
  have ranges : c.isAlphanum = (decide ('A' ≤ c ∧ c ≤ 'Z') ||
      (decide ('a' ≤ c) && decide (c ≤ 'z')) || (decide ('0' ≤ c) && decide (c ≤ '9'))) := rfl
  simp only [ranges, Bool.or_eq_true, Bool.and_eq_true, decide_eq_true_eq] at plain
  rcases plain with (upper | lower) | digit
  · exact .inl upper
  · exact .inr (.inl lower)
  · exact .inr (.inr (.inl digit))

theorem fileChar_of_isSafe {c : Char} (safe : isSafe c = true) : FileChar c := by
  simp only [isSafe, Bool.or_eq_true, decide_eq_true_eq] at safe
  rcases safe with ((plain | dot) | line) | hyphen
  · exact fileChar_of_isAlphanum plain
  · exact .inr (.inr (.inr (.inl dot)))
  · exact .inr (.inr (.inr (.inr (.inl line))))
  · exact .inr (.inr (.inr (.inr (.inr hyphen))))

theorem fileText_sanitize (text : String) : FileText (sanitize text) := by
  intro c member
  unfold sanitize at member
  split at member
  · obtain rfl : c = '_' := by simpa using member
    simp [FileChar]
  · rw [String.toList_ofList, List.mem_map] at member
    obtain ⟨original, _, rfl⟩ := member
    split
    · next safe => exact fileChar_of_isSafe safe
    · simp [FileChar]

theorem fileText_toString (n : Nat) : FileText (toString n) := by
  intro c member
  have digit : c.isDigit = true := by
    rw [show toString n = n.repr from rfl, Nat.toList_repr] at member
    exact Nat.isDigit_of_mem_toDigits (by decide) (by decide) member
  refine fileChar_of_isAlphanum ?_
  rw [show c.isAlphanum = (c.isAlpha || c.isDigit) from rfl, digit, Bool.or_true]

theorem toString_injective {m n : Nat} (same : toString m = toString n) : m = n := by
  have digits := congrArg String.toList same
  rw [show toString m = m.repr from rfl, show toString n = n.repr from rfl, Nat.toList_repr,
    Nat.toList_repr] at digits
  have numbers := congrArg (Nat.ofDigitChars 10 · 0) digits
  simpa only [Nat.ofDigitChars_toDigits (by decide : 1 < 10) (by decide : 10 ≤ 10)] using numbers

/-- What is tried for a stem, one after the other. -/
def candidate (stem : String) : Nat → String
  | 0 => stem
  | i + 1 => numbered stem (i + 2)

theorem fileText_candidate {stem : String} (safe : FileText stem) (i : Nat) :
    FileText (candidate stem i) := by
  cases i with
  | zero => exact safe
  | succ i =>
    refine (safe.append ?_).append (fileText_toString _)
    simp [FileText, FileChar]

theorem candidates_eq (stem : String) (count : Nat) :
    candidates stem count = (List.range count).map (candidate stem) := by
  cases count with
  | zero => rfl
  | succ count =>
    rw [candidates, List.range_succ_eq_map, List.map_cons, List.map_map]
    rfl

theorem candidate_injective (stem : String) : Function.Injective (candidate stem) := by
  have longer : ∀ n, numbered stem n ≠ stem := by
    intro n same
    have lengths := congrArg String.length same
    simp only [numbered, String.length_append] at lengths
    have hyphen : "-".length = 1 := rfl
    omega
  intro i j same
  cases i with
  | zero =>
    cases j with
    | zero => rfl
    | succ j => exact absurd same.symm (longer _)
  | succ i =>
    cases j with
    | zero => exact absurd same (longer _)
    | succ j =>
      have numbers := toString_injective ((String.append_right_inj _).mp same)
      omega

/-- The first of the candidates that is not in use. -/
structure FirstFree (used : List String) (stem : String) (i : Nat) : Prop where
  free : candidate stem i ∉ used
  taken : ∀ j < i, candidate stem j ∈ used

theorem FirstFree.congr {used other : List String} {stem : String} {i : Nat}
    (first : FirstFree used stem i) (same : ∀ s, s ∈ used ↔ s ∈ other) : FirstFree other stem i :=
  ⟨fun member => first.free ((same _).mpr member), fun j below => (same _).mp (first.taken j below)⟩

/-- More candidates than stems in use cannot all be in use. -/
theorem exists_free (used : List String) (stem : String) :
    ∃ i ≤ used.length, candidate stem i ∉ used := by
  by_contra! all
  have listed : (List.range (used.length + 1)).map (candidate stem) ⊆ used := by
    intro s member
    obtain ⟨i, within, rfl⟩ := List.mem_map.mp member
    exact all i (by simpa [Nat.lt_succ_iff] using within)
  have distinct := List.nodup_range (n := used.length + 1) |>.map (candidate_injective stem)
  have short := (distinct.subperm listed).length_le
  rw [List.length_map, List.length_range] at short
  omega

/-- The stem given is the first free candidate, found with one look more than stems are in use
at most. -/
theorem fresh_firstFree (used : List String) (stem : String) :
    ∃ i ≤ used.length, FirstFree used stem i ∧ fresh used stem = candidate stem i := by
  have some_free : ∃ i, candidate stem i ∉ used := by
    obtain ⟨i, _, free⟩ := exists_free used stem
    exact ⟨i, free⟩
  have taken : ∀ j < Nat.find some_free, candidate stem j ∈ used := fun j below =>
    not_not.mp (Nat.find_min some_free below)
  have near : Nat.find some_free ≤ used.length := by
    obtain ⟨i, within, free⟩ := exists_free used stem
    exact Nat.le_trans (Nat.find_min' some_free free) within
  refine ⟨Nat.find some_free, near, ⟨Nat.find_spec some_free, taken⟩, ?_⟩
  have found : (List.range (used.length + 1)).find?
      ((fun s => !used.contains s) ∘ candidate stem) = some (Nat.find some_free) := by
    rw [List.find?_range_eq_some]
    refine ⟨?_, List.mem_range.mpr (by omega), fun j below => ?_⟩
    · simpa using Nat.find_spec some_free
    · simpa using taken j below
  rw [fresh, candidates_eq, List.find?_map, found]
  rfl

theorem fresh_not_mem (used : List String) (stem : String) : fresh used stem ∉ used := by
  obtain ⟨i, _, first, same⟩ := fresh_firstFree used stem
  rw [same]
  exact first.free

theorem fileText_fresh {stem : String} (safe : FileText stem) (used : List String) :
    FileText (fresh used stem) := by
  obtain ⟨i, _, _, same⟩ := fresh_firstFree used stem
  rw [same]
  exact fileText_candidate safe i

end Stem

theorem ScanUnit.fileText_stem (u : ScanUnit) : FileText u.stem := by
  have line : FileText "_" := by simp [FileText, FileChar]
  exact ((((Stem.fileText_sanitize _).append line).append (Stem.fileText_sanitize _)).append
    line).append (Stem.fileText_sanitize _)

/-- Stems that units are given, in order, with others in use before. -/
def stemsOf (used : List String) : List UnitReport → List String
  | [] => []
  | u :: rest =>
    if u.status = .cancelled then stemsOf used rest
    else Stem.fresh used u.unit.stem :: stemsOf (Stem.fresh used u.unit.stem :: used) rest

theorem withFiles_cancelled {u : UnitReport} (cancelled : u.status = .cancelled)
    (rest : List UnitReport) (used : List String) :
    withFiles used (u :: rest) = (u, none) :: withFiles used rest := by
  rw [withFiles, if_pos cancelled]

theorem withFiles_started {u : UnitReport} (started : u.status ≠ .cancelled)
    (rest : List UnitReport) (used : List String) :
    withFiles used (u :: rest) = (u, some (.ofStem (Stem.fresh used u.unit.stem))) ::
      withFiles (Stem.fresh used u.unit.stem :: used) rest := by
  rw [withFiles, if_neg started]

theorem withFiles_length (units : List UnitReport) (used : List String) :
    (withFiles used units).length = units.length := by
  induction units generalizing used with
  | nil => rfl
  | cons u rest ih =>
    by_cases cancelled : u.status = .cancelled
    · rw [withFiles_cancelled cancelled, List.length_cons, ih, List.length_cons]
    · rw [withFiles_started cancelled, List.length_cons, ih, List.length_cons]

theorem withFiles_append (before after : List UnitReport) (used : List String) :
    withFiles used (before ++ after) =
      withFiles used before ++ withFiles ((stemsOf used before).reverse ++ used) after := by
  induction before generalizing used with
  | nil => rfl
  | cons u rest ih =>
    rw [List.cons_append, stemsOf]
    by_cases cancelled : u.status = .cancelled
    · rw [withFiles_cancelled cancelled, withFiles_cancelled cancelled, if_pos cancelled, ih,
        List.cons_append]
    · rw [withFiles_started cancelled, withFiles_started cancelled, if_neg cancelled, ih]
      simp only [List.cons_append, List.reverse_cons, List.append_assoc, List.nil_append]

theorem withFiles_files (units : List UnitReport) (used : List String) :
    (withFiles used units).filterMap (·.2) = (stemsOf used units).map .ofStem := by
  induction units generalizing used with
  | nil => rfl
  | cons u rest ih =>
    rw [stemsOf]
    by_cases cancelled : u.status = .cancelled
    · rw [withFiles_cancelled cancelled, if_pos cancelled, List.filterMap_cons_none rfl, ih]
    · rw [withFiles_started cancelled, if_neg cancelled, List.map_cons, ← ih]
      rfl

theorem stemsOf_length (units : List UnitReport) (used : List String) :
    (stemsOf used units).length = units.countP (·.status ≠ .cancelled) := by
  induction units generalizing used with
  | nil => rfl
  | cons u rest ih =>
    rw [stemsOf, List.countP_cons]
    by_cases cancelled : u.status = .cancelled
    · simp [cancelled, ih]
    · simp [cancelled, ih]

/-- No stem is given twice, and none that was in use before. -/
theorem stemsOf_nodup (units : List UnitReport) (used : List String) :
    (stemsOf used units).Nodup ∧ ∀ stem ∈ stemsOf used units, stem ∉ used := by
  -- By induction for all stems in use: later stems avoid the ones given so far too.
  induction units generalizing used with
  | nil => simp [stemsOf]
  | cons u rest ih =>
    rw [stemsOf]
    by_cases cancelled : u.status = .cancelled
    · rw [if_pos cancelled]
      exact ih used
    · rw [if_neg cancelled]
      obtain ⟨once, apart⟩ := ih (Stem.fresh used u.unit.stem :: used)
      refine ⟨List.nodup_cons.mpr ⟨fun again => apart _ again List.mem_cons_self, once⟩, ?_⟩
      intro stem member
      rcases List.mem_cons.mp member with rfl | later
      · exact Stem.fresh_not_mem used _
      · exact fun old => apart stem later (List.mem_cons_of_mem _ old)

theorem fileText_of_mem_stemsOf (units : List UnitReport) (used : List String) :
    ∀ stem ∈ stemsOf used units, FileText stem := by
  induction units generalizing used with
  | nil => simp [stemsOf]
  | cons u rest ih =>
    intro stem member
    rw [stemsOf] at member
    split at member
    · exact ih used stem member
    · rcases List.mem_cons.mp member with rfl | later
      · exact Stem.fileText_fresh u.unit.fileText_stem used
      · exact ih _ stem later

/-- The two names made of a stem. -/
def UnitFiles.names (files : UnitFiles) : List String := [files.checks, files.inventory]

/-- Names of files start differently by their kind. -/
theorem UnitFiles.ofStem_start (stem : String) :
    (ofStem stem).checks.toList.take 3 = ['c', 'h', 'e'] ∧
      (ofStem stem).inventory.toList.take 3 = ['i', 'n', 'v'] := by
  simp [ofStem]

theorem UnitFiles.start_of_mem {stem name : String} (member : name ∈ (ofStem stem).names) :
    name.toList.take 3 = ['c', 'h', 'e'] ∨ name.toList.take 3 = ['i', 'n', 'v'] := by
  simp only [names, List.mem_cons, List.not_mem_nil, or_false] at member
  rcases member with rfl | rfl
  · exact .inl (ofStem_start stem).1
  · exact .inr (ofStem_start stem).2

theorem UnitFiles.ofStem_inj {first second : String} {name : String}
    (one : name ∈ (ofStem first).names) (other : name ∈ (ofStem second).names) :
    first = second := by
  obtain ⟨checks, inventory⟩ := ofStem_start first
  obtain ⟨checks', inventory'⟩ := ofStem_start second
  simp only [names, List.mem_cons, List.not_mem_nil, or_false] at one other
  rcases one with rfl | rfl
  · rcases other with same | same
    · simpa [ofStem] using same
    · rw [same, inventory'] at checks
      cases checks
  · rcases other with same | same
    · rw [same, checks'] at inventory
      cases inventory
    · simpa [ofStem] using same

namespace ScanReport

/-- Stems of the units of a scan that were started. -/
def stems (r : ScanReport) : List String := stemsOf [] r.units

theorem withFiles_names (scanId : String) (units : List UnitReport) (used : List String) :
    ((withFiles used units).flatMap fun (u, files) => match files with
      | some files => u.artifacts scanId files
      | none => []).map (·.name) =
      (stemsOf used units).flatMap fun stem => (UnitFiles.ofStem stem).names := by
  induction units generalizing used with
  | nil => rfl
  | cons u rest ih =>
    rw [stemsOf]
    by_cases cancelled : u.status = .cancelled
    · rw [withFiles_cancelled cancelled, if_pos cancelled, List.flatMap_cons, List.nil_append, ih]
    · rw [withFiles_started cancelled, if_neg cancelled, List.flatMap_cons, List.map_append, ih]
      rfl

theorem artifacts_names (r : ScanReport) :
    r.artifacts.map (·.name) =
      (r.stems.flatMap fun stem => (UnitFiles.ofStem stem).names) ++ [indexName, summaryName] := by
  rw [artifacts, List.map_append]
  exact congrArg (· ++ [indexName, summaryName]) (withFiles_names r.scanId r.units [])

theorem artifacts_names_nodup (r : ScanReport) : (r.artifacts.map (·.name)).Nodup := by
  rw [artifacts_names, List.nodup_append, List.nodup_flatMap]
  refine ⟨⟨fun stem _ => ?_, ?_⟩, by decide, fun name member other fixed same => ?_⟩
  · obtain ⟨checks, inventory⟩ := UnitFiles.ofStem_start stem
    rw [UnitFiles.names, List.nodup_cons, List.mem_singleton]
    refine ⟨fun same => ?_, List.nodup_singleton _⟩
    rw [same, inventory] at checks
    cases checks
  · refine (stemsOf_nodup r.units []).1.imp fun apart name one other => ?_
    exact apart (UnitFiles.ofStem_inj one other)
  · subst same
    obtain ⟨stem, _, inside⟩ := List.mem_flatMap.mp member
    have made := UnitFiles.start_of_mem inside
    simp only [indexName, summaryName, List.mem_cons, List.not_mem_nil, or_false] at fixed
    rcases fixed with rfl | rfl
    · exact absurd made (by decide)
    · exact absurd made (by decide)

theorem artifacts_length (r : ScanReport) :
    r.artifacts.length = 2 * r.units.countP (·.status ≠ .cancelled) + 2 := by
  have pairs : ∀ stems : List String,
      (stems.flatMap fun stem => (UnitFiles.ofStem stem).names).length = 2 * stems.length := by
    intro stems
    induction stems with
    | nil => rfl
    | cons stem rest ih =>
      rw [List.flatMap_cons, List.length_append, ih, List.length_cons]
      simp only [UnitFiles.names, List.length_cons, List.length_nil]
      omega
  rw [← List.length_map (·.name), artifacts_names, List.length_append, pairs, stems,
    stemsOf_length]
  rfl

theorem fileText_name (r : ScanReport) : ∀ name ∈ r.artifacts.map (·.name), FileText name := by
  intro name member
  rw [artifacts_names, List.mem_append] at member
  rcases member with made | fixed
  · obtain ⟨stem, listed, inside⟩ := List.mem_flatMap.mp made
    have safe := fileText_of_mem_stemsOf r.units [] stem listed
    simp only [UnitFiles.names, List.mem_cons, List.not_mem_nil, or_false] at inside
    have checks : FileText "checks_" := by simp [FileText, FileChar]
    have inventory : FileText "inventory_" := by simp [FileText, FileChar]
    have json : FileText ".json" := by simp [FileText, FileChar]
    rcases inside with rfl | rfl
    · exact (checks.append safe).append json
    · exact (inventory.append safe).append json
  · simp only [indexName, summaryName, List.mem_cons, List.not_mem_nil, or_false] at fixed
    rcases fixed with rfl | rfl
    · simp [FileText, FileChar]
    · simp [FileText, FileChar]

theorem name_start (r : ScanReport) :
    ∀ name ∈ r.artifacts.map (·.name), (name.toList.take 3).length = 3 := by
  intro name member
  rw [artifacts_names, List.mem_append] at member
  rcases member with made | fixed
  · obtain ⟨stem, _, inside⟩ := List.mem_flatMap.mp made
    rcases UnitFiles.start_of_mem inside with start | start
    · rw [start]
      rfl
    · rw [start]
      rfl
  · simp only [indexName, summaryName, List.mem_cons, List.not_mem_nil, or_false] at fixed
    rcases fixed with rfl | rfl
    · rfl
    · rfl

theorem isName_of_mem (r : ScanReport) :
    ∀ name ∈ r.artifacts.map (·.name), FileNode.IsName name := by
  intro name member
  have start := r.name_start name member
  refine ⟨?_, ?_, ?_, (r.fileText_name name member).slash_free⟩
  · rintro rfl
    cases start
  · rintro rfl
    cases start
  · rintro rfl
    cases start

/-- A file of a scan stands right in the directory of the scan. -/
theorem names_join_name (r : ScanReport) {name : String}
    (member : name ∈ r.artifacts.map (·.name)) (directory : String) :
    Location.names (Location.join directory name) = Location.names directory ++ [name] := by
  have named := r.isName_of_mem name member
  exact Location.names_join named.slash_free named.filled named.here directory

theorem locations_nodup (r : ScanReport) (directory : String) :
    (r.artifacts.map fun a => Location.join directory a.name).Nodup := by
  have apart := List.pairwise_map.mp r.artifacts_names_nodup
  refine List.pairwise_map.mpr (apart.imp_of_mem fun first second differ same => differ ?_)
  have names := congrArg Location.names same
  rw [r.names_join_name (List.mem_map_of_mem first),
    r.names_join_name (List.mem_map_of_mem second)] at names
  exact List.singleton_inj.mp (List.append_cancel_left names)

/-- The files of a scan as names and texts. -/
def texts (r : ScanReport) : List (String × String) :=
  r.artifacts.map fun a => (a.name, a.content.pretty)

theorem isName_of_texts (r : ScanReport) : ∀ f ∈ r.texts, FileNode.IsName f.1 := by
  intro f member
  obtain ⟨a, listed, rfl⟩ := List.mem_map.mp member
  exact r.isName_of_mem _ (List.mem_map_of_mem listed)

theorem texts_names_nodup (r : ScanReport) : (r.texts.map Prod.fst).Nodup := by
  rw [texts, List.map_map]
  exact r.artifacts_names_nodup

theorem steps_eq (r : ScanReport) (outputDir : String) : r.steps outputDir =
    .makeDirectory (r.directory outputDir) ::
      FileTree.writes (r.directory outputDir) r.texts := by
  rw [steps, FileTree.writes, texts, List.map_map]
  rfl

section

variable {r : ScanReport} {outputDir : String} {t made : FileTree}

theorem store_of_none (refused : t.makeDirectory? (r.directory outputDir) = none) :
    r.store outputDir t = (t, some (.createDirectory (r.directory outputDir))) := by
  rw [store, steps_eq, FileTree.perform, FileTree.step?, refused]
  rfl

theorem store_of_some (opened : t.makeDirectory? (r.directory outputDir) = some made) :
    r.store outputDir t =
      ((FileTree.perform (FileTree.writes (r.directory outputDir) r.texts) made).1,
        (FileTree.perform (FileTree.writes (r.directory outputDir) r.texts) made).2.map
          .ofStep) := by
  rw [store, steps_eq, FileTree.perform, FileTree.step?, opened]

end

/-- The files of a scan have locations of their own. Where the directory of the scan cannot be
made, nothing is stored. Where it is made and no link in it leads elsewhere, the scan is stored
just when each file can be written there by itself, and then each is read back as it was
written. -/
theorem stored_reads_back (r : ScanReport) (outputDir : String) (t : FileTree) :
    (r.artifacts.map fun a => Location.join (r.directory outputDir) a.name).Nodup ∧
    (t.makeDirectory? (r.directory outputDir) = none →
      r.store outputDir t = (t, some (.createDirectory (r.directory outputDir)))) ∧
    ∀ made, t.makeDirectory? (r.directory outputDir) = some made →
      made.Unlinked (r.directory outputDir) →
      ((r.store outputDir t).2 = none ↔ ∀ a ∈ r.artifacts, (made.write?
        (Location.join (r.directory outputDir) a.name) a.content.pretty).isSome = true) ∧
      ((r.store outputDir t).2 = none → ∀ a ∈ r.artifacts, (r.store outputDir t).1.readText?
        (Location.join (r.directory outputDir) a.name) = some a.content.pretty) := by
  refine ⟨r.locations_nodup _, store_of_none, fun made opened unlinked => ?_⟩
  obtain ⟨kept, names, known⟩ := FileTree.inner?_makeDirectory opened
  have inner := (kept _).trans known
  rw [store_of_some opened]
  rcases done : FileTree.perform (FileTree.writes (r.directory outputDir) r.texts) made with
    ⟨after, failed⟩
  have ended := FileTree.perform_writes_eq_none inner unlinked r.isName_of_texts
    r.texts_names_nodup
  rw [done] at ended
  simp only [Option.map_eq_none_iff]
  constructor
  · rw [ended, texts, List.forall_mem_map]
  · rintro rfl a member
    obtain ⟨stands, _⟩ := FileTree.stands_of_perform inner unlinked r.isName_of_texts
      r.texts_names_nodup done
    exact (stands _ (List.mem_map_of_mem member)).read
      (r.isName_of_mem _ (List.mem_map_of_mem member))

/-- Below an empty directory a scan without units is stored. -/
example :
    (store { scanId := "scan", startedAt := ⟨0⟩, finishedAt := ⟨0⟩, host := default, units := [] }
      "out" { top := "/srv", root := .directory [] }).2 = none := by
  decide +kernel

/-- The stem of a unit is its first candidate that no unit before it has. -/
theorem stem_of_unit (r : ScanReport) {before after : List UnitReport} {u : UnitReport}
    (split : r.units = before ++ u :: after) (started : u.status ≠ .cancelled) :
    ∃ i ≤ (stemsOf [] before).length, Stem.FirstFree (stemsOf [] before) u.unit.stem i ∧
      r.unitsWithFiles[before.length]? =
        some (u, some (.ofStem (Stem.candidate u.unit.stem i))) := by
  obtain ⟨i, near, first, same⟩ :=
    Stem.fresh_firstFree ((stemsOf [] before).reverse ++ []) u.unit.stem
  rw [List.append_nil, List.length_reverse] at near
  refine ⟨i, near, first.congr fun s => by simp, ?_⟩
  rw [unitsWithFiles, split, withFiles_append, withFiles_started started,
    List.getElem?_append_right (Nat.le_of_eq (withFiles_length before [])), withFiles_length,
    Nat.sub_self, List.getElem?_cons_zero, same]

/-- The files of a scan have names of their own, two for each unit that was started and one each
for the index and the summary. A name has plain characters only, so that its file stands right
in the directory of the scan. The search for a stem ends at the first candidate that no unit
before has, after one look more than there are stems in use at most. -/
theorem artifacts_have_own_names (r : ScanReport) :
    (r.artifacts.map (·.name)).Nodup ∧
    r.artifacts.map (·.name) =
      (r.unitsWithFiles.filterMap (·.2)).flatMap UnitFiles.names ++ [indexName, summaryName] ∧
    r.artifacts.length = 2 * r.units.countP (·.status ≠ .cancelled) + 2 ∧
    (∀ name ∈ r.artifacts.map (·.name), FileText name ∧ ∀ directory,
      Location.names (Location.join directory name) = Location.names directory ++ [name]) ∧
    ∀ before u after, r.units = before ++ u :: after → u.status ≠ .cancelled →
      (stemsOf [] before).length = before.countP (·.status ≠ .cancelled) ∧
      ∃ i ≤ (stemsOf [] before).length, Stem.FirstFree (stemsOf [] before) u.unit.stem i ∧
        r.unitsWithFiles[before.length]? =
          some (u, some (.ofStem (Stem.candidate u.unit.stem i))) := by
  refine ⟨r.artifacts_names_nodup, ?_, r.artifacts_length,
    fun name member => ⟨r.fileText_name name member, r.names_join_name member⟩,
    fun before u after split started => ⟨stemsOf_length before [], r.stem_of_unit split started⟩⟩
  rw [artifacts_names, unitsWithFiles, withFiles_files, List.flatMap_map]
  rfl

/-- A unit whose service is named as another unit is numbered. -/
def numberedAlike : UnitReport := .failed ⟨"org_a", "east", "vault-2"⟩ "north" "forbidden"

/-- Two accounts that read alike once cleaned, and then the unit above. -/
def alikeAccounts : ScanReport :=
  { scanId := "scan", startedAt := ⟨0⟩, finishedAt := ⟨0⟩, host := default
    units := [.failed ⟨"org/a", "east", "vault"⟩ "north" "forbidden",
      .cancelled ⟨"org/b", "east", "vault"⟩ "north",
      .failed ⟨"org:a", "east", "vault"⟩ "north" "forbidden", numberedAlike] }

/-- The last unit does not get the stem it asks for: the one before it has it. -/
theorem alikeAccounts_names :
    alikeAccounts.artifacts.map (·.name) =
      ["checks_org_a_east_vault.json", "inventory_org_a_east_vault.json",
        "checks_org_a_east_vault-2.json", "inventory_org_a_east_vault-2.json",
        "checks_org_a_east_vault-2-2.json", "inventory_org_a_east_vault-2-2.json",
        "index.json", "summary.json"] ∧
    (alikeAccounts.artifacts.map (·.name)).Nodup ∧
    ∃ i ≤ 2, Stem.FirstFree ["org_a_east_vault", "org_a_east_vault-2"] numberedAlike.unit.stem i ∧
      alikeAccounts.unitsWithFiles[3]? =
        some (numberedAlike, some (.ofStem (Stem.candidate numberedAlike.unit.stem i))) := by
  obtain ⟨distinct, _, _, _, stem⟩ := artifacts_have_own_names alikeAccounts
  obtain ⟨_, i, near, first, files⟩ :=
    stem (alikeAccounts.units.take 3) numberedAlike [] rfl (by decide)
  have used : stemsOf [] (alikeAccounts.units.take 3) =
      ["org_a_east_vault", "org_a_east_vault-2"] := by decide +kernel
  rw [used] at near first
  exact ⟨by decide +kernel, distinct, i, near, first, files⟩

end ScanReport

end CloudAudit
