import CloudAudit.Proofs.DiscoveryJoin
import CloudAudit.Proofs.DiscoveryOutcome

set_option autoImplicit false

/- What the results of a run hold. A discovery was skipped, or its result comes from
turns over the very result that is kept of the discovery it iterates over. -/
namespace CloudAudit

namespace Discovery

variable {u : UnitContext} {d : Discovery} {r : DiscoveryResult} {log : List Exchange}

/-- Turns are the same where the discovery iterated over has the same result. -/
theorem TurnsOf.later {earlier cache : Cache} {turns : List Turn}
    (given : TurnsOf d earlier turns)
    (kept : ∀ parent, d.forEach = some parent → ∀ q, earlier.get? parent = some q →
      cache.get? parent = some q) : TurnsOf d cache turns := by
  cases given with
  | root single => exact .root single
  | @each parent q iterates known emitted =>
    exact .each iterates (kept parent iterates q known) emitted

/-- The turns of a root have no parent item, those of the others have one. -/
theorem TurnsOf.parent_iff {cache : Cache} {turns : List Turn} (given : TurnsOf d cache turns)
    {turn : Turn} (member : turn ∈ turns) : turn = none ↔ d.forEach = none := by
  cases given with
  | root single =>
    obtain rfl := List.mem_singleton.mp member
    exact ⟨fun _ => single, fun _ => rfl⟩
  | each iterates known emitted =>
    obtain ⟨pair, _, rfl⟩ := List.mem_map.mp member
    simp only [iterates, reduceCtorEq]

/-- How the result of a discovery came about, the results of the others being known. -/
inductive Held (u : UnitContext) (cache : Cache) (d : Discovery) : DiscoveryResult → Prop
  | skipped (reason : Reason) : Held u cache d (.skip d.id reason)
  | ran {earlier : Cache} {turns : List Turn} {log : List Exchange} {r : DiscoveryResult}
      (given : TurnsOf d cache turns)
      (runs : RunsTurns u d (unitScope u earlier) turns
        { discoveryId := d.id, status := .running } log r) : Held u cache d r

theorem Held.of_path {earlier cache : Cache} (way : Program.Path (d.run u earlier) log (some r))
    (kept : ∀ parent, d.forEach = some parent → ∀ q, earlier.get? parent = some q →
      cache.get? parent = some q) : Held u cache d r := by
  cases given : d.turns earlier with
  | error reason =>
    simp only [run, given] at way
    cases way
    exact .skipped reason
  | ok turns =>
    simp only [run, given] at way
    exact .ran ((turnsOf_of_turns given).later kept) (runsTurns_of_path turns way)

variable {cache : Cache}

theorem Held.numbered (held : Held u cache d r) : r.Numbered d.idField := by
  cases held with
  | skipped reason => rfl
  | ran given runs => exact runs.numbered rfl

/-- A failure that is held is that of a turn, which had a parent item unless the
discovery is a root. -/
theorem Held.failed (held : Held u cache d r) {f : IterationFailure} (member : f ∈ r.failures) :
    d.onError = .proceed ∧ ∃ earlier turns turn, TurnsOf d cache turns ∧ turn ∈ turns ∧
      Fails u d (unitScope u earlier) turn f := by
  cases held with
  | skipped reason => cases member
  | @ran earlier turns log r given runs =>
    rcases runs.failed member with impossible | ⟨policy, turn, inside, fails⟩
    · cases impossible
    · exact ⟨policy, earlier, turns, turn, given, inside, fails⟩

/-- A discovery that failed has the error of an iteration for its reason. -/
theorem Held.reason (held : Held u cache d r) (failed : r.status = .failed) :
    ∃ message, r.reason = some (.iterationFailed message) := by
  cases held with
  | skipped reason => cases failed
  | ran given runs => exact runs.reason failed (by simp)

theorem Held.own (held : Held u cache d r) : r.discoveryId = d.id := by
  cases held with
  | skipped reason => rfl
  | ran given runs => exact runs.own

end Discovery

namespace Catalog

theorem held_of_runOne {u : UnitContext} {p : Progress} {cache : Cache} {d : Discovery}
    {r : DiscoveryResult} {log : List Exchange}
    (way : Program.Path (runOne u p d) log (some r))
    (kept : ∀ parent, d.forEach = some parent → ∀ q, p.cache.get? parent = some q →
      cache.get? parent = some q) : d.Held u cache r := by
  unfold runOne at way
  cases blocked : p.blocked.lookup d.id with
  | some reason =>
    rw [blocked] at way
    cases way
    exact .skipped reason
  | none =>
    rw [blocked] at way
    exact .of_path way kept

/-- With a client that always comes back, each discovery of a catalog has a result
in the end, and the result says how it came about. -/
theorem Discovers.held {σ : Type} {client : Client σ} (quiet : client.NeverCrashes)
    {c : Catalog} (planned : c.Planned) {u : UnitContext} {parallelism : Nat} {s t : Session σ}
    {outcome : Option Cache} (run : Discovers client u c parallelism s outcome t) :
    ∃ cache, outcome = some cache ∧
      ∀ d ∈ c.discoveries, ∃ r, cache.get? d.id = some r ∧ d.Held u cache r := by
  obtain ⟨results, rfl, ordered, _, members⟩ := run.memberRuns quiet planned
  refine ⟨_, rfl, fun d known => ?_⟩
  obtain ⟨n, run, place, final⟩ := members d known
  obtain ⟨before, part, named, seen⟩ := place.earlier
  obtain ⟨wave, present, member⟩ := place.member
  refine ⟨run.result, final, held_of_runOne place.way fun parent iterates q found => ?_⟩
  have waits : c.Waits d.id parent :=
    waits_iff.mpr ⟨d, known, rfl, by simp [Discovery.waitsOn, iterates]⟩
  obtain ⟨r, first, last⟩ := get?_reference planned ordered part named present member waits
  rw [seen] at found
  obtain rfl := Option.some.inj (first.symm.trans found)
  exact last

end Catalog

end CloudAudit
