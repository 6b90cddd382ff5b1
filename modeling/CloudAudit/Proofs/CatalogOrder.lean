import CloudAudit.Proofs.CatalogAccepted
import CloudAudit.Proofs.DiscoveryAnswered
import CloudAudit.Proofs.PlanOrder

set_option autoImplicit false

/- The order in which a document lists its discoveries is irrelevant. It shows in the
list of discoveries of the catalog, and in the order in which dependents are found; yet
a run only asks which discovery an id stands for and whether an id is a dependent. -/
namespace CloudAudit

open Relation

/-- A document with other discoveries, or with its own in another order. -/
def Document.withDiscovery (doc : Document) (entries : List DiscoveryEntry) : Document :=
  { doc with discovery := entries }

namespace Catalog

section

variable {c : Catalog} {ds : List Discovery} {doc : Document} {entries : List DiscoveryEntry}

/-- A catalog with the same discoveries in another order. -/
def withDiscoveries (c : Catalog) (ds : List Discovery) : Catalog := { c with discoveries := ds }

/-- A permuted document compiles to the same catalog, but for the order of its discoveries. -/
theorem compile_withDiscovery (compiled : doc.compile = .ok c)
    (perm : entries.Perm doc.discovery) :
    ∃ ds : List Discovery, ds.Perm c.discoveries ∧
      (doc.withDiscovery entries).compile = .ok (c.withDiscoveries ds) := by
  obtain ⟨names, planned, each, checked, parts⟩ := compile_eq_ok.mp compiled
  obtain ⟨ds, own, same⟩ := List.perm_comp_forall₂ perm (mapM_eq_ok.mp each)
  refine ⟨ds, same, compile_eq_ok.mpr ⟨names, ?_, mapM_eq_ok.mpr own, ?_, parts⟩⟩
  · have sound := Plan.Sound.of_wellFormed (Plan.wellFormed_of_build planned)
    exact (sound.build_perm (perm.map Document.dependency)).trans planned
  · obtain ⟨distinct, sound, each⟩ := (Document.compileChecks_eq_ok doc.checks).mp checked
    refine (Document.compileChecks_eq_ok doc.checks).mpr ⟨distinct, fun e member => ?_, each⟩
    exact ⟨(sound e member).1, ((perm.map (·.id)).mem_iff).mpr (sound e member).2⟩

/-- A document whose names are in order and whose discoveries have no plan is rejected
for the defect of the plan. -/
theorem compile_of_planError {e : PlanError}
    (service : Text.trimmed doc.service ≠ "") (provider : Text.trimmed doc.provider ≠ "")
    (built : Plan.build (doc.discovery.map Document.dependency) = .error e) :
    doc.compile = .error (.plan (Text.trimmed doc.service) e) := by
  unfold Document.compile
  simp only [service, provider, built]
  rfl

end

/-- Catalogs that give an id the same discovery and the same dependents. -/
structure Alike (c c' : Catalog) : Prop where
  plan : c.plan = c'.plan
  discovery : ∀ id, c.discovery? id = c'.discovery? id
  dependents : ∀ root id, id ∈ c.dependentsOf root ↔ id ∈ c'.dependentsOf root

theorem alike_withDiscoveries {c : Catalog} {ds : List Discovery} (planned : c.Planned)
    (again : (c.withDiscoveries ds).Planned) (perm : ds.Perm c.discoveries) :
    Alike c (c.withDiscoveries ds) := by
  have waits : (c.withDiscoveries ds).Waits = c.Waits := by
    funext a b
    rw [eq_iff_iff, waits_iff, waits_iff]
    simp only [withDiscoveries, perm.mem_iff]
  refine ⟨rfl, fun id => Option.ext fun d => ?_, fun root id => ?_⟩
  · rw [planned.discovery?_eq_some, again.discovery?_eq_some]
    simp only [withDiscoveries, perm.mem_iff]
  · rw [mem_dependentsOf, mem_dependentsOf, waits]

end Catalog

/-- The same results, and the same reason for each id that is blocked. The lists of blocked
ids may differ in their order. -/
structure Progress.Alike (p q : Progress) : Prop where
  cache : p.cache = q.cache
  blocked : ∀ id, p.blocked.lookup id = q.blocked.lookup id

namespace Catalog.Alike

variable {c c' : Catalog} {p q : Progress} {u : UnitContext} {σ : Type} {client : Client σ}
  {parallelism : Nat}

theorem symm (alike : Alike c c') : Alike c' c :=
  ⟨alike.plan.symm, fun id => (alike.discovery id).symm,
    fun root id => (alike.dependents root id).symm⟩

theorem add (alike : Alike c c') (same : p.Alike q) (r : DiscoveryResult) :
    (Progress.add c p r).Alike (Progress.add c' q r) where
  cache := congrArg (·.insert r.discoveryId r) same.cache
  blocked := by
    intro id
    unfold Progress.add
    by_cases failed : r.status = .failed
    · simp only [failed, ↓reduceIte, Blocked.lookup_foldl_insertNew, same.blocked id,
        alike.dependents]
    · simp only [failed, ↓reduceIte, same.blocked id]

theorem foldl_add (alike : Alike c c') (results : List DiscoveryResult) :
    ∀ {p q : Progress}, p.Alike q →
      (results.foldl (Progress.add c) p).Alike (results.foldl (Progress.add c') q) := by
  induction results with
  | nil => exact fun same => same
  | cons r rest ih => exact fun same => ih (alike.add same r)

theorem runMembers (alike : Alike c c') (same : p.Alike q) (ids : List String) :
    runMembers u c p ids = runMembers u c' q ids := by
  have one : ∀ d, runOne u p d = runOne u q d := by
    intro d
    unfold runOne
    rw [same.blocked, same.cache]
  induction ids with
  | nil => rfl
  | cons id rest ih => simp only [Catalog.runMembers, alike.discovery id, one, ih]

theorem runsWave (alike : Alike c c') (same : p.Alike q) {wave : List String} {s t : Session σ}
    {outcome : Option (List DiscoveryResult)}
    (run : RunsWave client u c parallelism p wave s outcome t) :
    RunsWave client u c' parallelism q wave s outcome t := by
  have members : Catalog.runMembers u c p = Catalog.runMembers u c' q :=
    funext (alike.runMembers same)
  cases run with
  | alone single =>
    rw [members]
    exact .alone single
  | shared many turns =>
    rw [members] at turns
    exact .shared many turns

theorem runsWaves (alike : Alike c c') {waves : List (List String)} {s t : Session σ}
    {outcome : Option Progress} (run : RunsWaves client u c parallelism waves p s outcome t) :
    ∀ {q : Progress}, p.Alike q → ∃ other, RunsWaves client u c' parallelism waves q s other t ∧
      outcome.map (·.cache) = other.map (·.cache) := by
  -- Wave by wave: the members are the same programs, and their results are taken in alike.
  induction run with
  | done p s =>
    intro q same
    exact ⟨some q, .done q s, congrArg some same.cache⟩
  | crash here =>
    intro q same
    exact ⟨none, .crash (alike.runsWave same here), rfl⟩
  | wave here _ ih =>
    intro q same
    obtain ⟨other, later, caches⟩ := ih (alike.foldl_add _ same)
    exact ⟨other, .wave (alike.runsWave same here) later, caches⟩

/-- A run of one catalog is a run of the other: the same calls in the same order, the
same answers and the same results, or the same crash. -/
theorem discovers (alike : Alike c c') {s t : Session σ} {outcome : Option Cache}
    (run : Discovers client u c parallelism s outcome t) :
    Discovers client u c' parallelism s outcome t := by
  obtain ⟨last, run, rfl⟩ := run
  obtain ⟨other, run, same⟩ := alike.runsWaves run ⟨rfl, fun _ => rfl⟩
  exact ⟨other, alike.plan ▸ run, same⟩

end Catalog.Alike

namespace Catalog

variable {c : Catalog} {u : UnitContext} {σ : Type} {client : Client σ}

/-- One worker leaves no choice of what comes next. -/
theorem RunsWaves.single {waves : List (List String)} {p : Progress} {s t : Session σ}
    {outcome : Option Progress} (run : RunsWaves client u c 1 waves p s outcome t) :
    runWaves client u c 1 waves p s = (outcome, t) := by
  have alone : ∀ {p : Progress} {wave : List String} {s t : Session σ}
      {outcome : Option (List DiscoveryResult)}, RunsWave client u c 1 p wave s outcome t →
      runWave client u c 1 p wave s = (outcome, t) := by
    intro p wave s t outcome run
    cases run with
    | alone single => simp only [runWave, single, Bool.false_eq_true, ↓reduceIte]
    | shared many _ => cases many
  induction run with
  | done p s => rfl
  | crash here => rw [runWaves, alone here]
  | wave here _ ih => simp only [runWaves, alone here, ih]

theorem Discovers.single {s t : Session σ} {outcome : Option Cache}
    (run : Discovers client u c 1 s outcome t) : c.discover client u 1 s = (outcome, t) := by
  obtain ⟨last, run, rfl⟩ := run
  unfold discover
  rw [run.single]

/-- However the discoveries of a document are ordered, it compiles to the same plan, and
the runs of what it compiles to are the same runs. With answers by the call alone they end
with the same results, and one worker makes the same calls in the same order. Where only a
cycle is wrong, the same cycle is reported. -/
theorem discovery_order_irrelevant {doc : Document} {entries : List DiscoveryEntry}
    (perm : entries.Perm doc.discovery) :
    (∀ c, doc.compile = .ok c →
      ∃ c', (doc.withDiscovery entries).compile = .ok c' ∧ c'.plan = c.plan ∧
        ∀ {σ : Type} (client : Client σ) (u : UnitContext),
          (∀ parallelism s outcome t, Discovers client u c' parallelism s outcome t ↔
            Discovers client u c parallelism s outcome t) ∧
          (∀ answer, client.AnswersBy answer → ∀ p q s₁ s₂ one other t₁ t₂,
            Discovers client u c p s₁ one t₁ → Discovers client u c' q s₂ other t₂ →
            ∃ cache, one = some cache ∧ other = some cache) ∧
          (∀ s one other t₁ t₂, Discovers client u c 1 s one t₁ →
            Discovers client u c' 1 s other t₂ → other = one ∧ t₂.calls = t₁.calls)) ∧
    (Text.allBlank doc.service = false → Text.allBlank doc.provider = false →
      Plan.Sound (doc.discovery.map Document.dependency) →
      (∃ id, TransGen (Plan.Waits (doc.discovery.map Document.dependency)) id id) →
      ∃ path, doc.compile = .error (.plan (Text.trimmed doc.service) (.cycle path)) ∧
        (doc.withDiscovery entries).compile =
          .error (.plan (Text.trimmed doc.service) (.cycle path))) := by
  constructor
  · intro c compiled
    obtain ⟨ds, same, again⟩ := compile_withDiscovery compiled perm
    have planned := planned_of_compile compiled
    have alike := alike_withDiscoveries planned (planned_of_compile again) same
    refine ⟨c.withDiscoveries ds, again, rfl, fun client u => ⟨?_, ?_, ?_⟩⟩
    · exact fun _ _ _ _ => ⟨alike.symm.discovers, alike.discovers⟩
    · intro answer fixed p q s₁ s₂ one other t₁ t₂ first second
      have back := alike.symm.discovers second
      exact ⟨_, (first.answered fixed planned).1, (back.answered fixed planned).1⟩
    · intro s one other t₁ t₂ first second
      have back := (alike.symm.discovers second).single
      rw [first.single] at back
      cases back
      exact ⟨rfl, rfl⟩
  · intro service provider sound cyclic
    obtain ⟨path, built⟩ := Plan.exists_cycle_iff.mpr ⟨sound, cyclic⟩
    have named := Text.trimmed_ne_empty.mpr service
    have provided := Text.trimmed_ne_empty.mpr provider
    refine ⟨path, compile_of_planError named provided built, ?_⟩
    have again := (sound.build_perm (perm.map Document.dependency)).trans built
    have rejected : (doc.withDiscovery entries).compile = _ :=
      compile_of_planError named provided again
    exact rejected

/-- Keys wait on grants, grants on roles, and roles on keys; hosts wait on keys. -/
def ringDocument : Document :=
  { provider := "north", service := "access",
    discovery := [listing "grants" none ["roles"], listing "hosts" none ["keys"],
      listing "keys" none ["grants"], listing "roles" none ["keys"]] }

def ringDependencies : List Dependency :=
  [⟨"grants", ["roles"]⟩, ⟨"hosts", ["keys"]⟩, ⟨"keys", ["grants"]⟩, ⟨"roles", ["keys"]⟩]

def ringError : CatalogError := .plan "access" (.cycle ["grants", "roles", "keys", "grants"])

theorem ring_sound : Plan.Sound ringDependencies := ⟨by decide, by decide, by decide⟩

theorem ring_cyclic : TransGen (Plan.Waits ringDependencies) "keys" "keys" := by
  have waits : ∀ a b, ⟨a, [b]⟩ ∈ ringDependencies → Plan.Waits ringDependencies a b :=
    fun a b known => ⟨⟨a, [b]⟩, known, rfl, List.mem_cons_self⟩
  have grants := waits "keys" "grants" (by decide)
  have roles := waits "grants" "roles" (by decide)
  have keys := waits "roles" "keys" (by decide)
  exact .tail (.tail (.single grants) roles) keys

/-- Written from the last discovery to the first, the estate has the same plan and the
same results, and one worker makes the same calls; the ring is rejected alike. -/
theorem estate_reversed :
    estateDocument.discovery.reverse.Perm estateDocument.discovery ∧
    estateDocument.compile = .ok estate ∧
    (∃ c', (estateDocument.withDiscovery estateDocument.discovery.reverse).compile = .ok c' ∧
      c'.plan = estate.plan ∧
      (c'.discover guarded estateUnit 2 ⟨(), [], false⟩).1 = (estateRun 1).1 ∧
      (c'.discover guarded estateUnit 1 ⟨(), [], false⟩).2.calls = (estateRun 1).2.calls) ∧
    ringDocument.discovery.reverse.Perm ringDocument.discovery ∧
    ringDocument.compile = .error ringError ∧
    (ringDocument.withDiscovery ringDocument.discovery.reverse).compile = .error ringError := by
  have perm := List.reverse_perm estateDocument.discovery
  have ringPerm := List.reverse_perm ringDocument.discovery
  obtain ⟨c', again, plan, runs⟩ := (discovery_order_irrelevant perm).1 estate estate_compiled
  obtain ⟨_, results, calls⟩ := runs guarded estateUnit
  have first := discover_discovers guarded estateUnit estate 1 ⟨(), [], false⟩
  obtain ⟨cache, one, other⟩ := results guardedAnswer guarded_answersBy 1 2 _ _ _ _ _ _ first
    (discover_discovers guarded estateUnit c' 2 ⟨(), [], false⟩)
  have same := calls _ _ _ _ _ first (discover_discovers guarded estateUnit c' 1 ⟨(), [], false⟩)
  have built : Plan.build ringDependencies =
      .error (.cycle ["grants", "roles", "keys", "grants"]) := by cbv
  have rejected : ringDocument.compile = .error ringError :=
    compile_of_planError (by decide) (by decide) built
  obtain ⟨path, error, alike⟩ := (discovery_order_irrelevant ringPerm).2 rfl rfl ring_sound
    ⟨"keys", ring_cyclic⟩
  rw [rejected] at error
  rw [← error] at alike
  exact ⟨perm, estate_compiled, ⟨c', again, plan, other.trans one.symm, same.2⟩, ringPerm,
    rejected, alike⟩

end Catalog

end CloudAudit
