import CloudAudit.Catalog.Directory
import Mathlib.Data.List.Induction
import Mathlib.Data.List.Nodup

set_option autoImplicit false

/- What becomes of the files of a directory. A file is rejected for itself, when it does not
compile, or for one before it, when that one has its service already; a file that is rejected
takes no service from those after it. -/
namespace CloudAudit.CatalogBatch

open FileTree

/-! Reading files one after the other. -/

/-- The batch once more files are read. -/
def readOn (t : FileTree) (b : CatalogBatch) (files : List Found) : CatalogBatch :=
  files.foldl (fun b f => b.add f.location (Catalog.ofFile t f.location)) b

theorem ofDirectory_eq {t : FileTree} {directory : String} {found : List Found}
    (present : t.isDirectory directory = true) (walked : t.allFiles directory = .ok found) :
    ofDirectory t directory = .ok (readOn t {} (catalogFiles found)) := by
  simp only [ofDirectory, present, walked, Bool.not_true, Bool.false_eq_true, ↓reduceIte, readOn]

/-- Why a file is rejected after the files of a batch. -/
def Rejects (b : CatalogBatch) (result : Except CatalogError Catalog) (e : CatalogError) : Prop :=
  result = .error e ∨ ∃ c, result = .ok c ∧ e = .duplicateService c.service ∧
    ∃ d ∈ b.catalogs, d.service = c.service

/-- One more file is loaded, or rejected for a reason. -/
theorem add_cases (b : CatalogBatch) (location : String) (result : Except CatalogError Catalog) :
    (∃ c, result = .ok c ∧ (∀ d ∈ b.catalogs, d.service ≠ c.service) ∧
      b.add location result = { b with loaded := b.loaded ++ [(location, c)] }) ∨
    ∃ e, b.Rejects result e ∧
      b.add location result = { b with failed := b.failed ++ [(location, e)] } := by
  cases result with
  | error e => exact .inr ⟨e, .inl rfl, rfl⟩
  | ok c =>
    by_cases taken : b.catalogs.any (·.service = c.service) = true
    · refine .inr ⟨.duplicateService c.service, .inr ⟨c, rfl, rfl, ?_⟩, if_pos taken⟩
      simpa using taken
    · refine .inl ⟨c, rfl, ?_, if_neg taken⟩
      simpa using taken

variable {t : FileTree}

/-- What reading files adds to a batch: each of them once, in the order in which they are read,
the loaded ones with what they compile to and a service of their own, and the rejected ones with
a reason. -/
structure Grows (t : FileTree) (files : List Found) (b after : CatalogBatch) : Prop where
  loaded : ∃ more, after.loaded = b.loaded ++ more ∧
    (more.map Prod.fst).Sublist (files.map (·.location)) ∧
    ∀ f ∈ more, Catalog.ofFile t f.1 = .ok f.2
  failed : ∃ more, after.failed = b.failed ++ more ∧
    (more.map Prod.fst).Sublist (files.map (·.location)) ∧
    ∀ f ∈ more, after.Rejects (Catalog.ofFile t f.1) f.2
  each : (after.loaded.map Prod.fst ++ after.failed.map Prod.fst).Perm
    (b.loaded.map Prod.fst ++ b.failed.map Prod.fst ++ files.map (·.location))
  services : (b.catalogs.map (·.service)).Nodup → (after.catalogs.map (·.service)).Nodup

section

variable {files others : List Found} {b middle after : CatalogBatch}

/-- A reason to reject a file stays one. -/
theorem Grows.rejects (grows : Grows t files b after) {result : Except CatalogError Catalog}
    {e : CatalogError} (reason : b.Rejects result e) : after.Rejects result e := by
  rcases reason with bad | ⟨c, read, same, d, known, taken⟩
  · exact .inl bad
  · obtain ⟨more, grown, _⟩ := grows.loaded
    refine .inr ⟨c, read, same, d, ?_, taken⟩
    rw [catalogs, grown, List.map_append]
    exact List.mem_append_left _ known

theorem Grows.refl (b : CatalogBatch) : Grows t [] b b where
  loaded := ⟨[], (List.append_nil _).symm, .slnil, by simp⟩
  failed := ⟨[], (List.append_nil _).symm, .slnil, by simp⟩
  each := by rw [List.map_nil, List.append_nil]
  services := id

theorem Grows.trans (first : Grows t files b middle) (second : Grows t others middle after) :
    Grows t (files ++ others) b after where
  loaded := by
    obtain ⟨one, grown, inside, own⟩ := first.loaded
    obtain ⟨two, grown', inside', own'⟩ := second.loaded
    refine ⟨one ++ two, by rw [grown', grown, List.append_assoc], ?_, ?_⟩
    · rw [List.map_append, List.map_append]
      exact inside.append inside'
    · exact List.forall_mem_append.mpr ⟨own, own'⟩
  failed := by
    obtain ⟨one, grown, inside, reasons⟩ := first.failed
    obtain ⟨two, grown', inside', reasons'⟩ := second.failed
    refine ⟨one ++ two, by rw [grown', grown, List.append_assoc], ?_, ?_⟩
    · rw [List.map_append, List.map_append]
      exact inside.append inside'
    · exact List.forall_mem_append.mpr ⟨fun f member => second.rejects (reasons f member), reasons'⟩
  each := by
    rw [List.map_append, ← List.append_assoc]
    exact second.each.trans (first.each.append_right _)
  services := second.services ∘ first.services

end

theorem grows_add (b : CatalogBatch) (f : Found) :
    Grows t [f] b (b.add f.location (Catalog.ofFile t f.location)) := by
  rcases add_cases b f.location (Catalog.ofFile t f.location) with
    ⟨c, read, free, added⟩ | ⟨e, reason, added⟩
  · rw [added]
    refine ⟨⟨[(f.location, c)], rfl, .refl _, ?_⟩, ⟨[], (List.append_nil _).symm, ?_, ?_⟩, ?_, ?_⟩
    · simpa using read
    · exact List.nil_sublist _
    · simp
    · simp only [List.map_append, List.map_singleton, List.append_assoc]
      exact (List.perm_append_comm).append_left _
    · intro own
      rw [catalogs, List.map_append, List.map_append]
      refine List.nodup_append.mpr ⟨own, List.nodup_singleton _, ?_⟩
      rintro service taken _ last rfl
      obtain ⟨d, member, same⟩ := List.mem_map.mp taken
      exact free d member (same.trans (List.mem_singleton.mp last))
  · rw [added]
    refine ⟨⟨[], (List.append_nil _).symm, List.nil_sublist _, by simp⟩,
      ⟨[(f.location, e)], rfl, .refl _, ?_⟩, ?_, id⟩
    · exact List.forall_mem_singleton.mpr reason
    · simp only [List.map_append, List.map_singleton, List.append_assoc, List.Perm.refl]

theorem grows_readOn (b : CatalogBatch) (files : List Found) :
    Grows t files b (readOn t b files) := by
  induction files generalizing b with
  | nil => exact .refl b
  | cons f rest ih => exact (grows_add b f).trans (ih _)

theorem fileCount_readOn (files : List Found) : (readOn t {} files).fileCount = files.length := by
  have each := (grows_readOn (t := t) {} files).each.length_eq
  simpa [fileCount] using each

/-! Which files are rejected, told from the files alone. -/

/-- Whether a file compiles to a catalog of a service. -/
def defines (t : FileTree) (service : String) (f : Found) : Bool :=
  match Catalog.ofFile t f.location with
  | .ok c => c.service = service
  | .error _ => false

/-- Whether a file is rejected when others come before it. -/
def rejects (t : FileTree) (before : List Found) (f : Found) : Bool :=
  match Catalog.ofFile t f.location with
  | .ok c => before.any (defines t c.service)
  | .error _ => true

/-- Files that are rejected, in order, when others come before all of them. -/
def rejectedAfter (t : FileTree) : List Found → List Found → List Found
  | _, [] => []
  | before, f :: rest =>
    if rejects t before f then f :: rejectedAfter t (before ++ [f]) rest
    else rejectedAfter t (before ++ [f]) rest

/-- Files that are rejected, in order. -/
def rejected (t : FileTree) (files : List Found) : List Found := rejectedAfter t [] files

theorem rejectedAfter_append (before first second : List Found) :
    rejectedAfter t before (first ++ second) =
      rejectedAfter t before first ++ rejectedAfter t (before ++ first) second := by
  induction first generalizing before with
  | nil => simp [rejectedAfter]
  | cons f rest ih =>
    simp only [List.cons_append, rejectedAfter, ih, List.append_assoc, List.nil_append]
    split
    · rfl
    · rfl

theorem rejected_concat (files : List Found) (f : Found) :
    rejected t (files ++ [f]) =
      rejected t files ++ if rejects t files f then [f] else [] := by
  rw [rejected, rejectedAfter_append, List.nil_append, rejectedAfter, rejectedAfter, rejected]

/-- A file that does not compile is rejected wherever it comes. -/
theorem mem_rejectedAfter_of_error {f : Found} {e : CatalogError}
    (bad : Catalog.ofFile t f.location = .error e) :
    ∀ {before files : List Found}, f ∈ files → f ∈ rejectedAfter t before files := by
  intro before files member
  induction files generalizing before with
  | nil => cases member
  | cons g rest ih =>
    rw [rejectedAfter]
    rcases List.mem_cons.mp member with rfl | later
    · rw [rejects, bad]
      exact List.mem_cons_self
    · split
      · exact List.mem_cons_of_mem _ (ih later)
      · exact ih later

theorem defines_iff {service : String} {f : Found} : defines t service f = true ↔
    ∃ c, Catalog.ofFile t f.location = .ok c ∧ c.service = service := by
  unfold defines
  split
  · simp_all
  · simp_all

/-- The services that are taken are those that files define, whether these were loaded or
rejected: what rejects a file for its service is loaded with that service. -/
theorem defined_iff (files : List Found) (service : String) :
    files.any (defines t service) = true ↔
      ∃ d ∈ (readOn t {} files).catalogs, d.service = service := by
  have grows := grows_readOn (t := t) {} files
  obtain ⟨loaded, whole, inside, own⟩ := grows.loaded
  obtain ⟨failed, whole', _, reasons⟩ := grows.failed
  constructor
  · intro defined
    obtain ⟨f, member, defines⟩ := List.any_eq_true.mp defined
    obtain ⟨c, read, same⟩ := defines_iff.mp defines
    have told := grows.each.mem_iff.mpr (List.mem_append_right _ (List.mem_map_of_mem member))
    rw [whole, whole', List.mem_append] at told
    rcases told with known | refused
    · obtain ⟨g, listed, named⟩ := List.mem_map.mp known
      have again := own g listed
      rw [named] at again
      refine ⟨c, ?_, same⟩
      rw [catalogs, whole, Except.ok.inj (read.symm.trans again)]
      exact List.mem_map_of_mem listed
    · obtain ⟨g, listed, named⟩ := List.mem_map.mp refused
      have reason := reasons g listed
      rw [named] at reason
      rcases reason with bad | ⟨c', again, _, taken⟩
      · cases read.symm.trans bad
      · rwa [← same, Except.ok.inj (read.symm.trans again)]
  · rintro ⟨d, known, same⟩
    rw [catalogs, whole] at known
    obtain ⟨g, listed, rfl⟩ := List.mem_map.mp known
    obtain ⟨f, member, named⟩ := List.mem_map.mp (inside.subset (List.mem_map_of_mem listed))
    refine List.any_eq_true.mpr ⟨f, member, defines_iff.mpr ⟨g.2, ?_, same⟩⟩
    rw [named]
    exact own g listed

theorem rejects_iff (files : List Found) (f : Found) : rejects t files f = true ↔
    ∃ e, (readOn t {} files).Rejects (Catalog.ofFile t f.location) e := by
  unfold rejects
  split
  next c read =>
    rw [defined_iff]
    simp [Rejects, read]
  next e read => simp [Rejects, read]

/-- A batch tells of the files that are rejected. -/
theorem failed_readOn (files : List Found) :
    (readOn t {} files).failed.map Prod.fst = (rejected t files).map (·.location) := by
  induction files using List.reverseRecOn with
  | nil => rfl
  | append_singleton files f ih =>
    have read : readOn t {} (files ++ [f]) =
        (readOn t {} files).add f.location (Catalog.ofFile t f.location) := List.foldl_append
    rw [read, rejected_concat, List.map_append, ← ih]
    rcases add_cases (readOn t {} files) f.location (Catalog.ofFile t f.location) with
      ⟨c, compiled, free, added⟩ | ⟨e, reason, added⟩
    · have accepted : rejects t files f = false := by
        rw [Bool.eq_false_iff, ne_eq, rejects_iff]
        rintro ⟨e, bad | ⟨d, again, _, taken⟩⟩
        · cases compiled.symm.trans bad
        · obtain rfl := Except.ok.inj (compiled.symm.trans again)
          obtain ⟨other, known, same⟩ := taken
          exact free other known same
      rw [added, accepted, if_neg Bool.false_ne_true, List.map_nil, List.append_nil]
    · rw [added, if_pos ((rejects_iff files f).mpr ⟨e, reason⟩), List.map_append]
      rfl

end CloudAudit.CatalogBatch
