import CloudAudit.Proofs.CatalogBatch
import CloudAudit.Run

set_option autoImplicit false

/- Runs that are refused. All that can be refused is looked at before a client is asked and
before anything is written, so a refused run leaves nothing behind; and one catalog file that
is rejected refuses the whole run, wherever it stands among the others. -/
namespace CloudAudit

/-- A scan that is refused has not asked its client. -/
theorem ScanConfig.run_refused {σ : Type} {config : ScanConfig} {client : Client σ}
    {catalogs : List Catalog} {id : String} {host : Host} {now : Moment} {clock : Nat → Moment}
    {s : Session σ} {cause : ScanError}
    (refused : (config.run client catalogs id host now s clock).1 = .error cause) :
    (config.run client catalogs id host now s clock).2 = s := by
  unfold ScanConfig.run at refused ⊢
  by_cases empty : (config.matrix catalogs).isEmpty = true
  · simp only [empty, ↓reduceIte]
  · simp only [empty, Bool.false_eq_true, ↓reduceIte] at refused
    cases refused

theorem CatalogBatch.required_of_rejected {t : FileTree} {directory : String}
    {found : List FileTree.Found} (present : t.isDirectory directory = true)
    (walked : t.allFiles directory = .ok found)
    (some_rejected : rejected t (catalogFiles found) ≠ []) :
    required t directory =
      .error (.catalogsInvalid (rejected t (catalogFiles found)).length
        (catalogFiles found).length) := by
  have failed : (readOn t {} (catalogFiles found)).failed.length =
      (rejected t (catalogFiles found)).length := by
    simpa using congrArg List.length (failed_readOn (t := t) (catalogFiles found))
  have unclean : (readOn t {} (catalogFiles found)).isClean = false := by
    rw [isClean, List.isEmpty_eq_false_iff]
    intro clean
    rw [clean] at failed
    exact some_rejected (List.length_eq_zero_iff.mp failed.symm)
  simp only [required, ofDirectory_eq present walked, unclean, Bool.false_eq_true, ↓reduceIte,
    failed, fileCount_readOn]

namespace RunConfig

variable {c : RunConfig} {e : Surroundings} {cancelled : Bool}

theorem scan_refused {cause : RunError} (refused : (c.scan e cancelled).1 = .error cause) :
    (c.scan e cancelled).2 = [] := by
  unfold scan at refused ⊢
  cases prepared : c.prepare e with
  | error cause => rfl
  | ok ready =>
    simp only [prepared] at refused ⊢
    cases ran : (ready.config.run ready.client ready.catalogs e.scanId e.host e.now
        ⟨(), [], cancelled⟩ e.clock).1 with
    | ok report =>
      rw [ran] at refused
      cases refused
    | error cause =>
      rw [ScanConfig.run_refused ran]
      rfl

/-- What a refused run leaves behind: nothing, unless it was refused by the files it writes. -/
theorem run_refused {cause : RunError} (refused : (c.run e cancelled).outcome = .error cause)
    (not_output : ∀ o, cause ≠ .output o) :
    (c.run e cancelled).calls = [] ∧ (c.run e cancelled).files = e.files := by
  have silent := @scan_refused c e cancelled
  -- Results are stored only after a scan that was made, so what fails there is the output.
  unfold run at refused ⊢
  rcases scanned : c.scan e cancelled with ⟨result, calls⟩
  simp only [scanned] at refused silent ⊢
  cases result with
  | error other => exact ⟨silent rfl, rfl⟩
  | ok report =>
    rcases stored : report.store c.resultDir e.files with ⟨files, _ | fault⟩
    · simp only [stored] at refused
      cases refused
    · simp only [stored] at refused
      cases refused
      exact absurd rfl (not_output fault)

/-- A configuration in which nothing is wrong, and whose filters can be read, however the patterns
of filters are read. -/
structure Valid (c : RunConfig) (e : Surroundings) : Prop where
  sound : c.defect? = none
  filters : ∃ settings, c.scanConfig e.processors e.compile = .ok settings

theorem Valid.exists_client (valid : c.Valid e) :
    ∃ settings, c.client = some settings := by
  have sound := valid.sound
  cases client : c.client with
  | some settings => exact ⟨settings, rfl⟩
  | none => grind [defect?]

theorem run_of_rejected (valid : c.Valid e) {directory : String}
    (named : c.catalogDir = some directory) {cause : RunError}
    (rejected : CatalogBatch.required e.files directory = .error cause) :
    (c.run e cancelled).outcome = .error cause := by
  obtain ⟨settings, filters⟩ := valid.filters
  obtain ⟨client, given⟩ := valid.exists_client
  have prepared : c.prepare e = .error cause := by
    simp only [prepare, valid.sound, filters, given, requiredCatalogDir, named, rejected,
      Except.mapError, bind, Except.bind]
  simp only [run, scan, prepared]

/-- A run that ends in an error other than one of its output has called no client and changed
no file. Where the configuration is valid and the directory of catalogs can be walked, a file
of it that does not compile is rejected, and a rejected file ends the run with the number of
rejected files and the number of all catalog files. -/
theorem refused_run_leaves_nothing (c : RunConfig) (e : Surroundings) (cancelled : Bool) :
    (∀ cause, (c.run e cancelled).outcome = .error cause → (∀ o, cause ≠ .output o) →
      (c.run e cancelled).calls = [] ∧ (c.run e cancelled).files = e.files) ∧
    ∀ (directory : String) (found : List FileTree.Found), c.Valid e →
      c.catalogDir = some directory → e.files.isDirectory directory = true →
      e.files.allFiles directory = .ok found →
      (∀ f ∈ CatalogBatch.catalogFiles found, ∀ cause,
        Catalog.ofFile e.files f.location = .error cause →
          f ∈ CatalogBatch.rejected e.files (CatalogBatch.catalogFiles found)) ∧
      ∀ f ∈ CatalogBatch.rejected e.files (CatalogBatch.catalogFiles found),
        (c.run e cancelled).outcome = .error (.catalogsInvalid
          (CatalogBatch.rejected e.files (CatalogBatch.catalogFiles found)).length
          (CatalogBatch.catalogFiles found).length) := by
  refine ⟨fun cause refused not_output => run_refused refused not_output,
    fun directory found valid named present walked => ⟨fun f listed cause bad => ?_,
      fun f member => ?_⟩⟩
  · exact CatalogBatch.mem_rejectedAfter_of_error bad listed
  · exact run_of_rejected valid named
      (CatalogBatch.required_of_rejected present walked (List.ne_nil_of_mem member))

/-- A run over one account, with the catalogs of one directory. -/
def nightly : RunConfig where
  catalogDir := some "catalogs"
  accounts := ["ops"]
  includeAccounts := ["op.*"]
  client := some (.fixtures "answers")

/-- One of the catalogs, below the directory that is named, is an empty document; the note
beside it is no catalog. -/
def spoiled : Surroundings where
  files :=
    { top := "/srv"
      root := .directory [("catalogs", .directory [("note.txt", .file "draft".toUTF8),
        ("network", .directory [("vpc.json", .file "\x7b\x7d".toUTF8)])])] }
  scanId := "s1"
  host := ⟨"box", "linux", "root", none⟩
  now := ⟨0⟩
  processors := 2

/-- The empty document, as it is found. -/
def emptyCatalog : FileTree.Found := ⟨["network", "vpc.json"], "catalogs/network/vpc.json"⟩

theorem spoiled_catalogs : CatalogBatch.catalogFiles
    [⟨["note.txt"], "catalogs/note.txt"⟩, emptyCatalog] = [emptyCatalog] := by
  have listed : [⟨["note.txt"], "catalogs/note.txt"⟩, emptyCatalog].filter
      (fun f : FileTree.Found => (CatalogFormat.ofLocation? f.location).isSome) =
        [emptyCatalog] := by
    decide +kernel
  rw [CatalogBatch.catalogFiles, listed, List.mergeSort_singleton]

theorem emptyCatalog_rejected : Catalog.ofFile spoiled.files emptyCatalog.location =
    .error (.parse "catalogs/network/vpc.json" none) := by
  have format : CatalogFormat.ofLocation? emptyCatalog.location = some .json := by
    decide +kernel
  have text : spoiled.files.readText? emptyCatalog.location = some "\x7b\x7d" := by
    decide +kernel
  rw [Catalog.ofFile, format, text]
  rfl

theorem nightly_valid : nightly.Valid spoiled := ⟨rfl, _, rfl⟩

theorem spoiled_refused :
    (nightly.run spoiled false).outcome = .error (.catalogsInvalid 1 1) ∧
    (nightly.run spoiled false).calls = [] ∧
    (nightly.run spoiled false).files = spoiled.files := by
  obtain ⟨nothing_left, refusals⟩ := refused_run_leaves_nothing nightly spoiled false
  obtain ⟨bad_rejected, refused⟩ :=
    refusals "catalogs" [⟨["note.txt"], "catalogs/note.txt"⟩, emptyCatalog] nightly_valid rfl
      (by decide +kernel) rfl
  rw [spoiled_catalogs] at bad_rejected refused
  have member := bad_rejected emptyCatalog List.mem_cons_self _ emptyCatalog_rejected
  have only : CatalogBatch.rejected spoiled.files [emptyCatalog] = [emptyCatalog] := by
    rw [CatalogBatch.rejected, CatalogBatch.rejectedAfter, CatalogBatch.rejects,
      emptyCatalog_rejected]
    rfl
  have outcome := refused emptyCatalog member
  rw [only] at outcome
  refine ⟨outcome, nothing_left _ outcome fun o same => ?_⟩
  cases same

end RunConfig

end CloudAudit
