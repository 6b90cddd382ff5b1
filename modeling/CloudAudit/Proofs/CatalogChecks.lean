import CloudAudit.Proofs.CatalogPlan

set_option autoImplicit false

/- What compiling promises of the checks of a catalog. Each has conditions and looks
at a discovery of the catalog, so a verdict is never empty and never orphaned. -/
namespace CloudAudit

namespace Document

variable {service : String}

theorem check_of_compile {e : CheckEntry} {check : Check}
    (compiled : compileCheck service e = .ok check) :
    check.conditions ≠ [] ∧ check.forEach = e.forEach := by
  unfold compileCheck at compiled
  obtain ⟨filled, compiled⟩ := guard_eq_ok.mp compiled
  obtain ⟨conditions, each, compiled⟩ := bind_eq_ok.mp compiled
  cases compiled
  refine ⟨?_, rfl⟩
  intro empty
  rw [show conditions = [] from empty] at each
  have none_listed := List.forall₂_nil_right_iff.mp (mapM_eq_ok.mp each)
  exact filled (by rw [none_listed]; rfl)

/-- Checks compile one by one, when their ids do not repeat and each names a discovery. -/
theorem compileChecks_eq_ok {ids : List String} (entries : List CheckEntry) :
    ∀ {seen : List String} {checks : List Check},
      compileChecks service ids seen entries = .ok checks ↔
        (entries.map (·.checkId)).Nodup ∧ (∀ e ∈ entries, e.checkId ∉ seen ∧ e.forEach ∈ ids) ∧
        List.Forall₂ (fun e check => compileCheck service e = .ok check) entries checks := by
  induction entries with
  | nil =>
    intro seen checks
    rw [compileChecks, List.forall₂_nil_left_iff]
    simp [eq_comm]
  | cons e rest ih =>
    intro seen checks
    rw [compileChecks, guard_eq_ok, guard_eq_ok, List.forall₂_cons_left_iff, List.map_cons,
      List.nodup_cons, List.forall_mem_cons]
    simp only [List.contains_eq_mem, decide_eq_true_eq, Bool.not_eq_true', decide_eq_false_iff_not,
      Decidable.not_not]
    constructor
    · rintro ⟨fresh, listed, compiled⟩
      obtain ⟨check, here, compiled⟩ := bind_eq_ok.mp compiled
      obtain ⟨more, later, compiled⟩ := bind_eq_ok.mp compiled
      cases compiled
      obtain ⟨distinct, sound, each⟩ := ih.mp later
      refine ⟨⟨?_, distinct⟩, ⟨⟨fresh, listed⟩, fun other member => ?_⟩, check, more, here, each, rfl⟩
      · intro again
        obtain ⟨other, member, same⟩ := List.mem_map.mp again
        exact (sound other member).1 (same ▸ List.mem_cons_self)
      · exact ⟨fun old => (sound other member).1 (List.mem_cons_of_mem _ old), (sound other member).2⟩
    · rintro ⟨⟨once, distinct⟩, ⟨⟨fresh, listed⟩, sound⟩, check, more, here, each, rfl⟩
      refine ⟨fresh, listed, bind_eq_ok.mpr ⟨check, here, bind_eq_ok.mpr ⟨more, ih.mpr ?_, rfl⟩⟩⟩
      refine ⟨distinct, fun other member => ⟨?_, (sound other member).2⟩, each⟩
      rw [List.mem_cons, not_or]
      refine ⟨fun same => once ?_, (sound other member).1⟩
      exact List.mem_map.mpr ⟨other, member, same⟩

end Document

namespace Catalog

variable {doc : Document} {c : Catalog} {check : Check}

/-- A check of a compiled catalog is an entry of its document, compiled. -/
theorem exists_entry (compiled : doc.compile = .ok c) (member : check ∈ c.checks) :
    ∃ e ∈ doc.checks, Document.compileCheck c.service e = .ok check ∧
      e.forEach ∈ doc.discovery.map (·.id) := by
  obtain ⟨_, _, _, checked, _⟩ := compile_eq_ok.mp compiled
  obtain ⟨_, sound, each⟩ := (Document.compileChecks_eq_ok doc.checks).mp checked
  obtain ⟨e, listed, here⟩ := exists_of_forall₂ each member
  exact ⟨e, listed, here, (sound e listed).2⟩

/-- A check of a compiled catalog has conditions. -/
theorem conditions_ne_nil (compiled : doc.compile = .ok c) (member : check ∈ c.checks) :
    check.conditions ≠ [] := by
  obtain ⟨_, _, here, _⟩ := exists_entry compiled member
  exact (Document.check_of_compile here).1

/-- The discoveries of a compiled catalog are those of its document, in order. -/
theorem discovery_ids (compiled : doc.compile = .ok c) :
    c.discoveries.map (·.id) = doc.discovery.map (·.id) := by
  rw [← dependencies_ids, dependencies_of_compile compiled, List.map_map]
  rfl

/-- A check of a compiled catalog looks at one of its discoveries. -/
theorem exists_discovery (compiled : doc.compile = .ok c) (member : check ∈ c.checks) :
    ∃ d ∈ c.discoveries, d.id = check.forEach := by
  obtain ⟨_, _, here, listed⟩ := exists_entry compiled member
  rw [← (Document.check_of_compile here).2, ← discovery_ids compiled] at listed
  exact List.mem_map.mp listed

end Catalog

end CloudAudit
