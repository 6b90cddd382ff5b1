import CloudAudit.Proofs.CatalogAccepted
import CloudAudit.Proofs.CheckRows

set_option autoImplicit false

/- A compiled catalog is safe to run. Whatever its client does, a wave that comes back
has a result under each of its ids, also those of a share whose worker crashed; so the
results of a run are under the ids of the plan, and every check finds one. -/
namespace CloudAudit

namespace Catalog

variable {σ : Type} {client : Client σ} {u : UnitContext} {c : Catalog} {p : Progress}
  {parallelism : Nat}

theorem ids_lostShare (share : List String) :
    (lostShare share).map (·.discoveryId) = share := by
  rw [lostShare, List.map_map]
  exact List.map_id share

theorem ids_of_path (planned : c.Planned) {ids : List String} {log : List Exchange}
    {results : List DiscoveryResult} (listed : ∀ id ∈ ids, id ∈ c.plan.order)
    (way : Program.Path (runMembers u c p ids) log (some results)) :
    results.map (·.discoveryId) = ids := by
  obtain ⟨runs, each, rfl, _⟩ := runMembers_path ids way
  rw [List.map_map]
  exact (own_ids each).trans (members_ids planned listed)

theorem ids_joinShares (planned : c.Planned) (shares : List (List String)) :
    ∀ {parts : List (Part (List DiscoveryResult))},
      List.Forall₂ Part.Of (shares.map fun share => some (runMembers u c p share)) parts →
      (∀ id ∈ shares.flatten, id ∈ c.plan.order) →
      (joinShares shares (parts.map (·.result))).map (·.discoveryId) = shares.flatten := by
  induction shares with
  | nil =>
    intro parts matched _
    cases matched
    rfl
  | cons share rest ih =>
    intro parts matched listed
    rw [List.flatten_cons, List.forall_mem_append] at listed
    cases matched with
    | @cons _ part _ others here matched =>
      have later := ih matched listed.2
      obtain ⟨result, log⟩ := part
      have way : Program.Path (runMembers u c p share) log result := here
      have own : (result.getD (lostShare share)).map (·.discoveryId) = share := by
        cases result with
        | none => exact ids_lostShare share
        | some results => exact ids_of_path planned listed.1 way
      simp only [joinShares, List.map_cons, List.zipWith_cons_cons, List.flatten_cons,
        List.map_append, own] at later ⊢
      rw [later]

/-- A wave that comes back has one result for each of its ids, in order. -/
theorem RunsWave.ids (planned : c.Planned) {wave : List String} {s t : Session σ}
    {results : List DiscoveryResult} (listed : ∀ id ∈ wave, id ∈ c.plan.order)
    (run : RunsWave client u c parallelism p wave s (some results) t) :
    results.map (·.discoveryId) = wave := by
  -- The results come as an index of the run, and cases need a variable there.
  generalize outcome : some results = ended at run
  cases run with
  | alone single =>
    obtain ⟨log, way, _⟩ := Program.run_path client (runMembers u c p wave) s
    rw [← outcome] at way
    exact ids_of_path planned listed way
  | shared many turns =>
    obtain ⟨parts, matched, rfl, _⟩ := turns.parts
    obtain rfl := Option.some.inj outcome
    have joined := ids_joinShares planned (shares parallelism wave) matched
    rw [shares_flatten many] at joined
    exact joined listed

theorem RunsWaves.ids (planned : c.Planned) {waves : List (List String)} {s t : Session σ}
    {outcome : Option Progress} (run : RunsWaves client u c parallelism waves p s outcome t) :
    ∀ {before : List DiscoveryResult} {last : Progress}, outcome = some last →
      (∀ id ∈ waves.flatten, id ∈ c.plan.order) → p = Progress.after c before →
      ∃ results, last = Progress.after c (before ++ results) ∧
        results.map (·.discoveryId) = waves.flatten := by
  induction run with
  | done p s =>
    rintro before last ended _ rfl
    obtain rfl := Option.some.inj ended
    exact ⟨[], by rw [List.append_nil], rfl⟩
  | crash here =>
    rintro before last ended
    cases ended
  | @wave wave rest p s t v results outcome here next ih =>
    rintro before last ended listed rfl
    rw [List.flatten_cons, List.forall_mem_append] at listed
    obtain ⟨more, rfl, later⟩ := ih ended listed.2 (Progress.after_append c before results)
    refine ⟨results ++ more, by rw [List.append_assoc], ?_⟩
    rw [List.map_append, here.ids planned listed.1, later, List.flatten_cons]

/-- The results of a run, if there are any, are those of the ids of the plan. -/
theorem Discovers.ids (planned : c.Planned) {s t : Session σ} {cache : Cache}
    (run : Discovers client u c parallelism s (some cache) t) :
    cache.ids.Perm c.plan.order ∧
      ∀ d ∈ c.discoveries, ∃ r, cache.get? d.id = some r ∧ r.discoveryId = d.id := by
  obtain ⟨last, run, ended⟩ := run
  cases last with
  | none => cases ended
  | some last =>
    obtain rfl := Option.some.inj ended
    have start : ({} : Progress) = Progress.after c [] := rfl
    obtain ⟨results, rfl, ids⟩ := run.ids planned rfl (fun _ member => member) start
    have distinct : (results.map (·.discoveryId)).Nodup := ids ▸ planned.order_nodup
    rw [List.nil_append]
    refine ⟨(Progress.ids_after_perm distinct).trans (.of_eq ids), fun d known => ?_⟩
    have listed : d.id ∈ results.map (·.discoveryId) := by
      rw [ids]
      exact planned.mem_order.mpr ⟨d, known, rfl⟩
    obtain ⟨r, member, own⟩ := List.mem_map.mp listed
    exact ⟨r, (Progress.get?_after_eq_some distinct).mpr ⟨member, own⟩, own⟩

/-- All that running a catalog looks up is there: discoveries by the ids of the document,
the members of every wave, and what every check looks at, however the run went. -/
structure Safe (doc : Document) (c : Catalog) : Prop where
  listed : ∀ id, (c.discovery? id).isSome ↔ id ∈ doc.discovery.map (·.id)
  found : ∀ id d, c.discovery? id = some d → d.id = id ∧
    ∃ e ∈ doc.discovery, e.id = id ∧ Document.compileDiscovery c.service e = .ok d
  members : ∀ wave ∈ c.plan.waves, (c.members wave).map (·.id) = wave
  results : ∀ {σ : Type} (client : Client σ) (u : UnitContext) (parallelism : Nat)
    (s t : Session σ) (cache : Cache), Discovers client u c parallelism s (some cache) t →
    cache.ids.Perm c.plan.order ∧
      ∀ check ∈ c.checks, ∃ r, cache.get? check.forEach = some r ∧ r.discoveryId = check.forEach

theorem safe_of_compile {doc : Document} (compiled : doc.compile = .ok c) : Safe doc c := by
  have planned := planned_of_compile compiled
  refine ⟨fun id => ?_, fun id d found => ?_, fun wave inside => ?_, ?_⟩
  · rw [← discovery_ids compiled, discovery?, List.find?_isSome, List.mem_map]
    simp only [decide_eq_true_eq]
  · obtain ⟨known, own⟩ := mem_of_discovery? found
    obtain ⟨_, _, each, _⟩ := compile_eq_ok.mp compiled
    obtain ⟨e, listed, here⟩ := exists_of_forall₂ (mapM_eq_ok.mp each) known
    have same := congrArg Dependency.id (Document.dependency_of_compile here)
    exact ⟨own, e, listed, same.symm.trans own, here⟩
  · exact members_ids planned fun id member => List.mem_flatten.mpr ⟨wave, inside, member⟩
  · intro σ client u parallelism s t cache run
    obtain ⟨ids, results⟩ := run.ids planned
    refine ⟨ids, fun check member => ?_⟩
    obtain ⟨d, known, same⟩ := exists_discovery compiled member
    exact same ▸ results d known

/-- The compiler accepts a document exactly when all its parts are in order, and what it
makes of it is safe to run. -/
theorem compile_accepts (doc : Document) :
    ((∃ c, doc.compile = .ok c) ↔ doc.Accepted) ∧ ∀ c, doc.compile = .ok c → Safe doc c :=
  ⟨doc.compile_ok, fun _ => safe_of_compile⟩

/-- A client that crashes when it is asked for hosts. -/
def hostless : Client Unit :=
  ⟨"hostless", fun call _ =>
    (⟨if call.request.resource = "hosts" then none else some (.ok (.array [])), false⟩, ())⟩

def hostlessRun : Option Cache × Session Unit :=
  fleet.discover hostless estateUnit 2 ⟨(), [], false⟩

def hostlessEnds : List (String × DiscoveryStatus) :=
  [("audits", .failed), ("disks", .skipped), ("hosts", .failed), ("keys", .emitted)]

/-- The worker that crashes at the hosts takes the audits with it; another one lists the
keys. All four checks still find what they look at. -/
theorem fleet_accepted :
    fleetDocument.Accepted ∧ fleetDocument.compile = .ok fleet ∧
    ∃ cache, hostlessRun.1 = some cache ∧
      cache.map (fun e => (e.1, e.2.status)) = hostlessEnds ∧
      ∀ check ∈ fleet.checks, ∃ r, cache.get? check.forEach = some r ∧
        r.discoveryId = check.forEach := by
  obtain ⟨accepts, safe⟩ := compile_accepts fleetDocument
  have ends : hostlessRun.1.map (List.map fun e => (e.1, e.2.status)) = some hostlessEnds := by
    decide +kernel
  obtain ⟨cache, ended, statuses⟩ := Option.map_eq_some_iff.mp ends
  have run := discover_discovers hostless estateUnit fleet 2 ⟨(), [], false⟩
  rw [show (fleet.discover hostless estateUnit 2 ⟨(), [], false⟩).1 = some cache from ended] at run
  exact ⟨accepts.mp ⟨fleet, fleet_compiled⟩, fleet_compiled, cache, ended, statuses,
    ((safe fleet fleet_compiled).results hostless estateUnit 2 _ _ cache run).2⟩

end Catalog

end CloudAudit
