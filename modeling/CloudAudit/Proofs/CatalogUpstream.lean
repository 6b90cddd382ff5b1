import CloudAudit.Proofs.CatalogChecks
import CloudAudit.Proofs.DiscoveryOutcome
import CloudAudit.Proofs.PlanOrder

set_option autoImplicit false

/- A discovery and all that it waits on, directly or further up, make a catalog of their
own. Catalogs that share these discoveries put them in the same waves and find the same
failure first. -/
namespace CloudAudit

open Relation

theorem Discovery.mem_references {d : Discovery} {id : String} :
    id ∈ d.dependency.references ↔ d.waitsOn id = true := by
  simp only [dependency, waitsOn, List.mem_append, Option.mem_toList, Bool.or_eq_true, beq_iff_eq,
    List.contains_iff_mem]

namespace Catalog

section

variable {c : Catalog} {d : Discovery} {id : String}

theorem waits_iff_waitsOn (planned : c.Planned) (known : d ∈ c.discoveries) :
    c.Waits d.id id ↔ d.waitsOn id = true := by
  rw [waits_iff]
  constructor
  · rintro ⟨e, listed, same, waits⟩
    rwa [← List.inj_on_of_nodup_map planned.distinct listed known same]
  · exact fun waits => ⟨d, known, rfl, waits⟩

theorem mem_dependencies (known : d ∈ c.discoveries) : d.dependency ∈ c.dependencies :=
  List.mem_map_of_mem known

theorem waveOf_lt (planned : c.Planned) (known : d ∈ c.discoveries)
    (waits : d.waitsOn id = true) : c.plan.waveOf id < c.plan.waveOf d.id := by
  obtain ⟨distinct, waves, complete⟩ := Plan.levels_of_build planned
  exact waves.waveOf_lt distinct (mem_dependencies known) (complete _ (mem_dependencies known))
    (Discovery.mem_references.mpr waits)

/-- What is waited on is a discovery of the catalog. -/
theorem exists_waited {a b : String} (planned : c.Planned) (waits : c.Waits a b) :
    ∃ e ∈ c.discoveries, e.id = b := by
  obtain ⟨e, known, _, reference⟩ := waits
  have listed := (Plan.wellFormed_of_build planned).listed e known b reference
  rw [dependencies_ids] at listed
  exact List.mem_map.mp listed

/-- The wave of a discovery, by those of what it waits on. -/
theorem waveOf_eq (planned : c.Planned) (known : d ∈ c.discoveries) :
    c.plan.waveOf d.id = match (d.dependency.references.map c.plan.waveOf).max? with
      | none => 0
      | some last => last + 1 := by
  obtain ⟨distinct, waves, complete⟩ := Plan.levels_of_build planned
  exact waves.waveOf_eq distinct (mem_dependencies known) (complete _ (mem_dependencies known))

/-- The failure that comes first stands before all others. -/
theorem FirstFailure.before {cache : Cache} {e x : String} (planned : c.Planned)
    (first : c.FirstFailure cache id e) (other : c.FailedUpstream cache id x)
    (listed : x ∈ c.plan.order) : x = e ∨ c.plan.Before e x := by
  obtain ⟨_, before, after, split, passed⟩ := first
  have sorted := Plan.order_sorted planned
  rw [split] at sorted listed
  rw [List.mem_append, List.mem_cons] at listed
  rcases listed with earlier | rfl | later
  · exact absurd other (passed x earlier)
  · exact .inl rfl
  · exact .inr ((List.pairwise_cons.mp (List.pairwise_append.mp sorted).2.1).1 x later)

end

/-- Discoveries that are in two catalogs, with all that they wait on. -/
structure Shared (c c' : Catalog) (ds : List Discovery) : Prop where
  left : ∀ d ∈ ds, d ∈ c.discoveries
  right : ∀ d ∈ ds, d ∈ c'.discoveries
  closed : ∀ d ∈ ds, ∀ id, d.waitsOn id = true → ∃ e ∈ ds, e.id = id

namespace Shared

variable {c c' : Catalog} {ds : List Discovery} {d : Discovery} {id : String}

theorem symm (shared : Shared c c' ds) : Shared c' c ds :=
  ⟨shared.right, shared.left, shared.closed⟩

/-- What a shared discovery waits on in one catalog is shared, and it waits on it in the
other one too. -/
theorem upstream (shared : Shared c c' ds) (planned : c.Planned) (member : d ∈ ds)
    (walk : TransGen c.Waits d.id id) :
    (∃ e ∈ ds, e.id = id) ∧ TransGen c'.Waits d.id id := by
  have step : ∀ e ∈ ds, ∀ {x}, c.Waits e.id x → (∃ f ∈ ds, f.id = x) ∧ c'.Waits e.id x := by
    intro e inside x waits
    have own := (waits_iff_waitsOn planned (shared.left e inside)).mp waits
    exact ⟨shared.closed e inside x own, waits_iff.mpr ⟨e, shared.right e inside, rfl, own⟩⟩
  induction walk with
  | single waits =>
    obtain ⟨inside, waits⟩ := step d member waits
    exact ⟨inside, .single waits⟩
  | tail _ waits ih =>
    obtain ⟨⟨e, inside, rfl⟩, walk⟩ := ih
    obtain ⟨last, waits⟩ := step e inside waits
    exact ⟨last, walk.tail waits⟩

theorem waveOf (shared : Shared c c' ds) (planned : c.Planned) (planned' : c'.Planned)
    (member : d ∈ ds) : c.plan.waveOf d.id = c'.plan.waveOf d.id := by
  -- By induction on the wave: what a discovery waits on is shared, and in an earlier one.
  induction wave : c.plan.waveOf d.id using Nat.strong_induction_on generalizing d with
  | _ n ih =>
    have references : d.dependency.references.map c.plan.waveOf =
        d.dependency.references.map c'.plan.waveOf := by
      apply List.map_congr_left
      intro id reference
      have waits := Discovery.mem_references.mp reference
      obtain ⟨e, inside, rfl⟩ := shared.closed d member id waits
      have below := waveOf_lt planned (shared.left d member) waits
      rw [wave] at below
      exact ih _ below inside rfl
    rw [← wave, waveOf_eq planned (shared.left d member),
      waveOf_eq planned' (shared.right d member), references]

theorem before (shared : Shared c c' ds) (planned : c.Planned) (planned' : c'.Planned)
    {a b : Discovery} (first : a ∈ ds) (second : b ∈ ds) :
    c.plan.Before a.id b.id ↔ c'.plan.Before a.id b.id := by
  rw [Plan.Before, Plan.Before, shared.waveOf planned planned' first,
    shared.waveOf planned planned' second]

variable {cache cache' : Cache}

theorem failedUpstream (shared : Shared c c' ds) (planned : c.Planned) (member : d ∈ ds)
    (same : ∀ id, TransGen c.Waits d.id id → cache.get? id = cache'.get? id)
    (failed : c.FailedUpstream cache d.id id) : c'.FailedUpstream cache' d.id id := by
  obtain ⟨walk, r, found, status⟩ := failed
  rw [same id walk] at found
  exact ⟨(shared.upstream planned member walk).2, r, found, status⟩

/-- Where the results upstream are the same, so is the failure that comes first. -/
theorem firstFailure (shared : Shared c c' ds) (planned : c.Planned) (planned' : c'.Planned)
    (member : d ∈ ds) (same : ∀ id, TransGen c.Waits d.id id → cache.get? id = cache'.get? id)
    {e e' : String} (first : c.FirstFailure cache d.id e)
    (second : c'.FirstFailure cache' d.id e') : e = e' := by
  have back : ∀ id, TransGen c'.Waits d.id id → cache'.get? id = cache.get? id :=
    fun id walk => (same id (shared.symm.upstream planned' member walk).2).symm
  have failed := shared.failedUpstream planned member same first.1
  have failed' := shared.symm.failedUpstream planned' member back second.1
  -- Each of the two is a failure in the other catalog too, so neither stands before the other.
  obtain ⟨⟨a, here, rfl⟩, _⟩ := shared.upstream planned member first.1.1
  obtain ⟨⟨b, there, rfl⟩, _⟩ := shared.upstream planned member failed'.1
  have listed := planned.mem_order.mpr ⟨b, shared.left b there, rfl⟩
  have listed' := planned'.mem_order.mpr ⟨a, shared.right a here, rfl⟩
  rcases first.before planned failed' listed with equal | before
  · exact equal.symm
  · rcases second.before planned' failed listed' with equal | before'
    · exact equal
    · exact absurd ((shared.before planned planned' there here).mpr before') before.asymm

end Shared

/-- A discovery and all that it waits on, in document order. -/
def upstream (c : Catalog) (id : String) : List Discovery :=
  c.discoveries.filter fun e => e.id = id ∨ id ∈ c.dependentsOf e.id

theorem mem_upstream {c : Catalog} {id : String} {e : Discovery} :
    e ∈ c.upstream id ↔ e ∈ c.discoveries ∧ ReflTransGen c.Waits id e.id := by
  rw [upstream, List.mem_filter, decide_eq_true_eq, mem_dependentsOf,
    reflTransGen_iff_eq_or_transGen]

end Catalog

/-- Part of a document: the discoveries with these ids, and the checks that look at them. -/
def Document.keep (doc : Document) (ids : List String) : Document :=
  { doc with
    discovery := doc.discovery.filter (·.id ∈ ids)
    checks := doc.checks.filter (·.forEach ∈ ids) }

/-- Part of a well-formed list is well-formed when it has all that it refers to. -/
theorem Plan.WellFormed.filter {ds : List Dependency} (sound : WellFormed ds)
    {kept : Dependency → Bool} (closed : ∀ d ∈ ds, kept d = true → ∀ r ∈ d.references,
      ∀ e ∈ ds, e.id = r → kept e = true) : WellFormed (ds.filter kept) where
  distinct := sound.distinct.sublist (List.filter_sublist.map _)
  foreign := fun d member => sound.foreign d (List.mem_of_mem_filter member)
  listed := by
    intro d member r reference
    obtain ⟨known, inside⟩ := List.mem_filter.mp member
    obtain ⟨e, other, same⟩ := List.mem_map.mp (sound.listed d known r reference)
    have stays := closed d known inside r reference e other same
    exact List.mem_map.mpr ⟨e, List.mem_filter.mpr ⟨other, stays⟩, same⟩
  acyclic := by
    intro id walk
    have all : ∀ a b, Waits (ds.filter kept) a b → Waits ds a b := by
      rintro a b ⟨d, member, same, reference⟩
      exact ⟨d, List.mem_of_mem_filter member, same, reference⟩
    exact sound.acyclic id (TransGen.mono all _ _ walk)

namespace Catalog

variable {doc : Document} {c : Catalog} {ids : List String}

/-- Part of a document that has all that its discoveries wait on has a plan. -/
theorem build_keep (compiled : doc.compile = .ok c)
    (closed : ∀ d ∈ c.discoveries, d.id ∈ ids → ∀ id, d.waitsOn id = true → id ∈ ids) :
    ∃ plan, Plan.build ((doc.keep ids).discovery.map Document.dependency) = .ok plan := by
  have dependencies : (doc.keep ids).discovery.map Document.dependency =
      c.dependencies.filter (·.id ∈ ids) := by
    rw [dependencies_of_compile compiled, List.filter_map]
    rfl
  rw [dependencies]
  have planned := planned_of_compile compiled
  refine Plan.build_of_wellFormed ((Plan.wellFormed_of_build planned).filter ?_)
  intro d known inside r reference e _ same
  obtain ⟨own, listed, rfl⟩ := List.mem_map.mp known
  rw [same, decide_eq_true_eq]
  exact closed own listed (of_decide_eq_true inside) r (Discovery.mem_references.mp reference)

/-- It compiles to that part of the catalog. -/
theorem compile_keep (compiled : doc.compile = .ok c)
    (closed : ∀ d ∈ c.discoveries, d.id ∈ ids → ∀ id, d.waitsOn id = true → id ∈ ids) :
    ∃ c', (doc.keep ids).compile = .ok c' ∧
      c'.discoveries = c.discoveries.filter (·.id ∈ ids) ∧
      c'.checks = c.checks.filter (·.forEach ∈ ids) := by
  obtain ⟨plan, built⟩ := build_keep compiled closed
  obtain ⟨names, _, each, checked, parts⟩ := compile_eq_ok.mp compiled
  obtain ⟨distinct, sound, eachCheck⟩ := (Document.compileChecks_eq_ok doc.checks).mp checked
  have discoveries : List.Forall₂ (fun e d => Document.compileDiscovery c.service e = .ok d)
      (doc.keep ids).discovery (c.discoveries.filter (·.id ∈ ids)) := by
    refine List.rel_filter (fun e d own => ?_) (mapM_eq_ok.mp each)
    have same : d.id = e.id := congrArg Dependency.id (Document.dependency_of_compile own)
    simp only [same]
  have checks : List.Forall₂ (fun e check => Document.compileCheck c.service e = .ok check)
      (doc.keep ids).checks (c.checks.filter (·.forEach ∈ ids)) := by
    refine List.rel_filter (fun e check own => ?_) eachCheck
    simp only [(Document.check_of_compile own).2]
  refine ⟨⟨c.provider, c.service, c.coverage, c.version, _, _, plan⟩, compile_eq_ok.mpr ?_, rfl, rfl⟩
  refine ⟨names, built, mapM_eq_ok.mpr discoveries,
    (Document.compileChecks_eq_ok _).mpr ⟨?_, fun e member => ⟨List.not_mem_nil, ?_⟩, checks⟩, parts⟩
  · exact distinct.sublist (List.filter_sublist.map _)
  · obtain ⟨known, inside⟩ := List.mem_filter.mp member
    obtain ⟨d, listed, same⟩ := List.mem_map.mp (sound e known).2
    refine List.mem_map.mpr ⟨d, List.mem_filter.mpr ⟨listed, ?_⟩, same⟩
    rw [same]
    exact inside

theorem shared_upstream {id : String} {c₂ : Catalog} (planned : c.Planned)
    (other : ∀ e ∈ c.upstream id, e ∈ c₂.discoveries) : Shared c c₂ (c.upstream id) where
  left := fun e member => (mem_upstream.mp member).1
  right := other
  closed := by
    intro e member x own
    obtain ⟨known, walk⟩ := mem_upstream.mp member
    have waits := (waits_iff_waitsOn planned known).mpr own
    obtain ⟨f, listed, rfl⟩ := exists_waited planned waits
    exact ⟨f, mem_upstream.mpr ⟨listed, walk.tail waits⟩, rfl⟩

end Catalog

end CloudAudit
