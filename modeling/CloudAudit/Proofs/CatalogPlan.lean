import CloudAudit.Catalog.Compile
import CloudAudit.Proofs.PlanBuild
import CloudAudit.Proofs.Success

set_option autoImplicit false

/- What compiling promises of the discoveries of a catalog. Ids are told apart,
and the plan of the catalog is the plan of their references, so the members of a
wave wait on earlier waves only. -/
namespace CloudAudit

open Relation

/-- What is in one of the first waves has a wave among them. -/
theorem Plan.exists_wave_lt {waves : List (List String)} {n : Nat} {id : String}
    (member : id ∈ (waves.take n).flatten) :
    ∃ m, m < n ∧ ∃ wave, waves[m]? = some wave ∧ id ∈ wave := by
  obtain ⟨wave, inside, member⟩ := List.mem_flatten.mp member
  obtain ⟨m, taken⟩ := List.mem_iff_getElem?.mp inside
  rw [List.getElem?_take] at taken
  split at taken
  · next below => exact ⟨m, below, wave, taken, member⟩
  · cases taken

/-- A compiled discovery as the planner sees it. -/
def Discovery.dependency (d : Discovery) : Dependency := ⟨d.id, d.forEach.toList ++ d.dependsOn⟩

theorem Document.dependency_of_compile {service : String} {e : DiscoveryEntry} {d : Discovery}
    (compiled : compileDiscovery service e = .ok d) : d.dependency = dependency e := by
  unfold compileDiscovery at compiled
  obtain ⟨_, compiled⟩ := guard_eq_ok.mp compiled
  obtain ⟨_, compiled⟩ := guard_eq_ok.mp compiled
  obtain ⟨calls, _, compiled⟩ := bind_eq_ok.mp compiled
  cases shape : e.emit with
  | none =>
    rw [shape] at compiled
    cases compiled
    rfl
  | some emit =>
    rw [shape] at compiled
    obtain ⟨_, _, compiled⟩ := bind_eq_ok.mp compiled
    cases compiled
    rfl

namespace Catalog

/-- The discoveries of a catalog as the planner sees them. -/
def dependencies (c : Catalog) : List Dependency := c.discoveries.map Discovery.dependency

/-- One id of a catalog waits directly on another. -/
def Waits (c : Catalog) : String → String → Prop := Plan.Waits c.dependencies

/-- The plan of a catalog is the plan of its own discoveries. -/
def Planned (c : Catalog) : Prop := Plan.build c.dependencies = .ok c.plan

/-- A document compiles to the catalog of its parts, each compiled on its own. -/
theorem compile_eq_ok {doc : Document} {c : Catalog} :
    doc.compile = .ok c ↔
      (Text.trimmed doc.service ≠ "" ∧ Text.trimmed doc.provider ≠ "") ∧
      Plan.build (doc.discovery.map Document.dependency) = .ok c.plan ∧
      doc.discovery.mapM (Document.compileDiscovery c.service) = .ok c.discoveries ∧
      Document.compileChecks c.service (doc.discovery.map (·.id)) [] doc.checks = .ok c.checks ∧
      c.provider = Text.trimmed doc.provider ∧ c.service = Text.trimmed doc.service ∧
      c.coverage = doc.coverage ∧ c.version = doc.version := by
  unfold Document.compile
  rw [guard_eq_ok, guard_eq_ok]
  constructor
  · rintro ⟨service, provider, compiled⟩
    obtain ⟨plan, planned, compiled⟩ := bind_eq_ok.mp compiled
    obtain ⟨discoveries, each, compiled⟩ := bind_eq_ok.mp compiled
    obtain ⟨checks, checked, compiled⟩ := bind_eq_ok.mp compiled
    cases compiled
    exact ⟨⟨service, provider⟩, mapError_eq_ok.mp planned, each, checked, rfl, rfl, rfl, rfl⟩
  · obtain ⟨_, _, _, _, discoveries, checks, plan⟩ := c
    rintro ⟨⟨service, provider⟩, planned, each, checked, rfl, rfl, rfl, rfl⟩
    exact ⟨service, provider, bind_eq_ok.mpr ⟨plan, mapError_eq_ok.mpr planned,
      bind_eq_ok.mpr ⟨discoveries, each, bind_eq_ok.mpr ⟨checks, checked, rfl⟩⟩⟩⟩

theorem dependencies_of_compile {doc : Document} {c : Catalog} (compiled : doc.compile = .ok c) :
    c.dependencies = doc.discovery.map Document.dependency := by
  obtain ⟨_, _, each, _⟩ := compile_eq_ok.mp compiled
  have same : List.Forall₂ Eq (c.discoveries.map Discovery.dependency)
      (doc.discovery.map Document.dependency) := by
    rw [List.forall₂_map_left_iff, List.forall₂_map_right_iff]
    exact (mapM_eq_ok.mp each).flip.imp fun _ _ => Document.dependency_of_compile
  rwa [List.forall₂_eq_eq_eq] at same

theorem planned_of_compile {doc : Document} {c : Catalog} (compiled : doc.compile = .ok c) :
    c.Planned := by
  obtain ⟨_, planned, _⟩ := compile_eq_ok.mp compiled
  rwa [Planned, dependencies_of_compile compiled]

theorem dependencies_ids (c : Catalog) : c.dependencies.map (·.id) = c.discoveries.map (·.id) := by
  simp [dependencies, Discovery.dependency, Function.comp_def]

theorem waits_iff {c : Catalog} {a b : String} :
    c.Waits a b ↔ ∃ d ∈ c.discoveries, d.id = a ∧ d.waitsOn b = true := by
  simp only [Waits, Plan.Waits, dependencies, List.mem_map, exists_exists_and_eq_and,
    Discovery.dependency, Discovery.waitsOn, List.mem_append, Option.mem_toList, Bool.or_eq_true,
    beq_iff_eq, List.contains_iff_mem]

theorem mem_of_discovery? {c : Catalog} {id : String} {d : Discovery}
    (found : c.discovery? id = some d) : d ∈ c.discoveries ∧ d.id = id :=
  ⟨List.mem_of_find?_eq_some found, by simpa using List.find?_some found⟩

namespace Planned

variable {c : Catalog}

theorem distinct (planned : c.Planned) : (c.discoveries.map (·.id)).Nodup := by
  rw [← dependencies_ids]
  exact (Plan.levels_of_build planned).1

theorem order_perm (planned : c.Planned) : c.plan.order.Perm (c.discoveries.map (·.id)) := by
  rw [← dependencies_ids]
  exact Plan.order_perm_of_build planned

theorem order_nodup (planned : c.Planned) : c.plan.order.Nodup :=
  planned.order_perm.nodup_iff.mpr planned.distinct

theorem mem_order (planned : c.Planned) {id : String} :
    id ∈ c.plan.order ↔ ∃ d ∈ c.discoveries, d.id = id := by
  rw [planned.order_perm.mem_iff, List.mem_map]

theorem exists_wave (planned : c.Planned) {d : Discovery} (known : d ∈ c.discoveries) :
    ∃ (n : Nat) (wave : List String), c.plan.waves[n]? = some wave ∧ d.id ∈ wave := by
  have listed := planned.mem_order.mpr ⟨d, known, rfl⟩
  obtain ⟨wave, inside, member⟩ := List.mem_flatten.mp listed
  obtain ⟨n, present⟩ := List.mem_iff_getElem?.mp inside
  exact ⟨n, wave, present, member⟩

/-- An id stands for one discovery. -/
theorem discovery?_eq (planned : c.Planned) {d : Discovery} (known : d ∈ c.discoveries) :
    c.discovery? d.id = some d := by
  have present : (c.discovery? d.id).isSome := List.find?_isSome.mpr ⟨d, known, by simp⟩
  obtain ⟨e, found⟩ := Option.isSome_iff_exists.mp present
  obtain ⟨listed, same⟩ := mem_of_discovery? found
  rw [found, List.inj_on_of_nodup_map planned.distinct listed known same]

theorem discovery?_eq_some (planned : c.Planned) {id : String} {d : Discovery} :
    c.discovery? id = some d ↔ d ∈ c.discoveries ∧ d.id = id := by
  constructor
  · exact mem_of_discovery?
  · rintro ⟨known, rfl⟩
    exact planned.discovery?_eq known

/-- A wave waits on earlier waves only. -/
theorem waits_earlier (planned : c.Planned) {n : Nat} {wave : List String}
    (present : c.plan.waves[n]? = some wave) {a b : String} (member : a ∈ wave)
    (waits : c.Waits a b) : b ∈ (c.plan.waves.take n).flatten := by
  obtain ⟨distinct, waves, _⟩ := Plan.levels_of_build planned
  obtain ⟨d, known, rfl, _, earlier⟩ := (waves.mem_wave present).mp member
  obtain ⟨e, listed, same, reference⟩ := waits
  have equal : e = d := List.inj_on_of_nodup_map distinct listed known same
  subst equal
  exact earlier b reference

/-- The waves before a wave are closed under waiting. -/
theorem waits_closed (planned : c.Planned) {n : Nat} {a b : String}
    (member : a ∈ (c.plan.waves.take n).flatten) (waits : c.Waits a b) :
    b ∈ (c.plan.waves.take n).flatten := by
  obtain ⟨m, below, wave, present, member⟩ := Plan.exists_wave_lt member
  have earlier := planned.waits_earlier present member waits
  rw [← List.take_append_drop m (c.plan.waves.take n), List.take_take, List.flatten_append,
    Nat.min_eq_left (Nat.le_of_lt below)]
  exact List.mem_append_left _ earlier

/-- A wave holds nothing of the waves before it. -/
theorem not_mem_earlier (planned : c.Planned) {n : Nat} {wave : List String}
    (present : c.plan.waves[n]? = some wave) {a : String} (member : a ∈ wave) :
    a ∉ (c.plan.waves.take n).flatten := by
  obtain ⟨_, waves, _⟩ := Plan.levels_of_build planned
  obtain ⟨_, _, _, fresh, _⟩ := (waves.mem_wave present).mp member
  exact fresh

theorem wave_unique (planned : c.Planned) {m n : Nat} {first second : List String}
    (here : c.plan.waves[m]? = some first) (there : c.plan.waves[n]? = some second) {a : String}
    (inFirst : a ∈ first) (inSecond : a ∈ second) : m = n := by
  have apart : ∀ {m n : Nat} {first second : List String}, c.plan.waves[m]? = some first →
      c.plan.waves[n]? = some second → a ∈ first → a ∈ second → ¬m < n := by
    intro m n first second here there inFirst inSecond below
    apply planned.not_mem_earlier there inSecond
    have taken : (c.plan.waves.take n)[m]? = some first := by
      rw [List.getElem?_take_of_lt below]
      exact here
    exact List.mem_flatten.mpr ⟨first, List.mem_of_getElem? taken, inFirst⟩
  have notBelow := apart here there inFirst inSecond
  have notAbove := apart there here inSecond inFirst
  omega

/-- All that a member of a wave waits on, directly or further up, is in earlier waves. -/
theorem upstream_earlier (planned : c.Planned) {n : Nat} {wave : List String}
    (present : c.plan.waves[n]? = some wave) {a b : String} (member : a ∈ wave)
    (walk : TransGen c.Waits a b) : b ∈ (c.plan.waves.take n).flatten := by
  induction walk with
  | single waits => exact planned.waits_earlier present member waits
  | tail _ waits ih => exact planned.waits_closed ih waits

end Planned

end Catalog

end CloudAudit
