import CloudAudit.Proofs.CatalogUpstream
import CloudAudit.Proofs.ScanFailures

set_option autoImplicit false

/- When a unit ends in error. The report looks for a failed discovery where none emitted
anything; in a compiled catalog that comes to all of its roots having failed, since every
other discovery waits on a root and is skipped with it. -/
namespace CloudAudit

open Relation

theorem Discovery.isRoot_iff {d : Discovery} :
    d.isRoot = true ↔ d.forEach = none ∧ d.dependsOn = [] := by
  simp only [isRoot, Bool.and_eq_true, Option.isNone_iff_eq_none, List.isEmpty_iff]

theorem Discovery.waitsOn_of_isRoot {d : Discovery} (root : d.isRoot = true) (id : String) :
    d.waitsOn id = false := by
  obtain ⟨single, free⟩ := isRoot_iff.mp root
  simp [waitsOn, single, free]

theorem Discovery.exists_waitsOn {d : Discovery} (inner : d.isRoot = false) :
    ∃ id, d.waitsOn id = true := by
  cases iterates : d.forEach with
  | some parent => exact ⟨parent, by simp [waitsOn, iterates]⟩
  | none =>
    cases waits : d.dependsOn with
    | nil => simp [isRoot, iterates, waits] at inner
    | cons id rest => exact ⟨id, by simp [waitsOn, waits]⟩

namespace Catalog

variable {c : Catalog} {d : Discovery}

/-- Every discovery that is no root waits on one, directly or further up. -/
theorem exists_root_upstream (planned : c.Planned) (known : d ∈ c.discoveries)
    (inner : d.isRoot = false) :
    ∃ root ∈ c.discoveries, root.isRoot = true ∧ TransGen c.Waits d.id root.id := by
  -- By induction on the wave: what a discovery waits on is in an earlier one.
  induction wave : c.plan.waveOf d.id using Nat.strong_induction_on generalizing d with
  | _ n ih =>
    obtain ⟨id, own⟩ := Discovery.exists_waitsOn inner
    have waits := (waits_iff_waitsOn planned known).mpr own
    obtain ⟨e, listed, rfl⟩ := exists_waited planned waits
    cases top : e.isRoot with
    | true => exact ⟨e, listed, top, .single waits⟩
    | false =>
      have below := waveOf_lt planned known own
      rw [wave] at below
      obtain ⟨root, present, first, walk⟩ := ih _ below listed top rfl
      exact ⟨root, present, first, .head waits walk⟩

theorem exists_root (planned : c.Planned) (some_discovery : c.discoveries ≠ []) :
    ∃ root ∈ c.discoveries, root.isRoot = true := by
  obtain ⟨d, known⟩ := List.exists_mem_of_ne_nil _ some_discovery
  cases top : d.isRoot with
  | true => exact ⟨d, known, top⟩
  | false =>
    obtain ⟨root, present, first, _⟩ := exists_root_upstream planned known top
    exact ⟨root, present, first⟩

/-- Roots are the first wave. -/
theorem waveOf_root (planned : c.Planned) (known : d ∈ c.discoveries) (root : d.isRoot = true) :
    c.plan.waveOf d.id = 0 := by
  obtain ⟨single, free⟩ := Discovery.isRoot_iff.mp root
  rw [waveOf_eq planned known, Discovery.dependency, single, free]
  rfl

theorem not_failedUpstream_of_root (planned : c.Planned) (known : d ∈ c.discoveries)
    (root : d.isRoot = true) (cache : Cache) : ¬∃ e, c.FailedUpstream cache d.id e := by
  rintro ⟨e, walk, _⟩
  obtain ⟨id, waits, _⟩ := TransGen.head'_iff.mp walk
  rw [waits_iff_waitsOn planned known, Discovery.waitsOn_of_isRoot root] at waits
  cases waits

/-- Each discovery has a result with its outcome, and a failure has a reason. -/
structure Settled (c : Catalog) (cache : Cache) (d : Discovery) (r : DiscoveryResult) : Prop where
  kept : cache.get? d.id = some r
  own : r.discoveryId = d.id
  status : r.status = .emitted ∨ r.status = .failed ∨ r.status = .skipped
  reason : r.status = .failed → ∃ message, r.reason = some (.iterationFailed message)
  outcome : c.Outcome cache d r

theorem Discovers.settled {σ : Type} {client : Client σ} (quiet : client.NeverCrashes)
    (planned : c.Planned) {u : UnitContext} {parallelism : Nat} {s t : Session σ}
    {outcome : Option Cache} (run : Discovers client u c parallelism s outcome t) :
    ∃ cache, outcome = some cache ∧ ∀ d ∈ c.discoveries, ∃ r, c.Settled cache d r := by
  obtain ⟨cache, same, held⟩ := run.held quiet planned
  obtain ⟨results, rfl, ordered, settled, members⟩ := run.memberRuns quiet planned
  obtain rfl := Option.some.inj same
  refine ⟨_, rfl, fun d known => ?_⟩
  obtain ⟨n, run, place, final⟩ := members d known
  obtain ⟨before, part, named, seen⟩ := place.earlier
  obtain ⟨wave, present, member⟩ := place.member
  have ended := runOne_path place.way
  rw [seen] at ended
  obtain ⟨r, found, held⟩ := held d known
  obtain rfl := Option.some.inj (final.symm.trans found)
  exact ⟨run.result, final, held.own, ended.settled, held.reason,
    outcome_of_ended planned ordered settled part named present member known ended⟩

section

variable {cache : Cache} {r : DiscoveryResult}

/-- A root runs, so it is never skipped. -/
theorem Settled.root_ran (settled : c.Settled cache d r) (planned : c.Planned)
    (known : d ∈ c.discoveries) (root : d.isRoot = true) :
    r.status = .emitted ∨ r.status = .failed := by
  refine settled.outcome.otherwise (not_failedUpstream_of_root planned known root cache) ?_
  intro parent q iterates
  rw [(Discovery.isRoot_iff.mp root).1] at iterates
  cases iterates

/-- All roots failed, and there is one. -/
def RootsFailed (c : Catalog) (results : List DiscoveryResult) : Prop :=
  c.discoveries ≠ [] ∧ ∀ d ∈ c.discoveries, d.isRoot = true →
    ∃ r ∈ results, r.discoveryId = d.id ∧ r.status = .failed

/-- Where all roots failed, the others are skipped. -/
theorem Settled.inner_skipped (settled : c.Settled cache d r) (planned : c.Planned)
    (known : d ∈ c.discoveries) (inner : d.isRoot = false)
    (failed : ∀ root ∈ c.discoveries, root.isRoot = true →
      ∃ q, cache.get? root.id = some q ∧ q.status = .failed) : r.status = .skipped := by
  obtain ⟨root, present, first, walk⟩ := exists_root_upstream planned known inner
  obtain ⟨e, _, rfl⟩ := settled.outcome.upstream ⟨root.id, walk, failed root present first⟩
  rfl

end

end Catalog

theorem unitFailure?_eq_none {results : List DiscoveryResult} :
    unitFailure? results = none ↔
      (∃ r ∈ results, r.status = .emitted) ∨ ∀ r ∈ results, r.status ≠ .failed := by
  unfold unitFailure?
  by_cases emitted : results.any (·.isEmitted) = true
  · rw [if_pos emitted]
    obtain ⟨r, member, found⟩ := List.any_eq_true.mp emitted
    exact iff_of_true rfl (.inl ⟨r, member, by simpa [DiscoveryResult.isEmitted] using found⟩)
  · rw [if_neg emitted, Option.map_eq_none_iff, List.find?_eq_none]
    have silent : ¬∃ r ∈ results, r.status = .emitted := by
      rintro ⟨r, member, found⟩
      exact emitted (List.any_eq_true.mpr ⟨r, member, by simpa [DiscoveryResult.isEmitted]⟩)
    simp only [silent, false_or, decide_eq_true_eq]

/-- The text names the first failure, with its reason. -/
theorem unitFailure?_eq_some {results : List DiscoveryResult} {text : String}
    (failure : unitFailure? results = some text) :
    ∃ first before after, results = before ++ first :: after ∧ first.status = .failed ∧
      (∀ r ∈ before, r.status ≠ .failed) ∧
      text = "discovery '" ++ first.discoveryId ++ "' failed" ++ match first.reason with
        | some reason => ": " ++ reason.message
        | none => "" := by
  unfold unitFailure? at failure
  split at failure
  · cases failure
  · obtain ⟨first, found, rfl⟩ := Option.map_eq_some_iff.mp failure
    obtain ⟨failed, before, after, split, passed⟩ := List.find?_eq_some_iff_append.mp found
    exact ⟨first, before, after, split, by simpa using failed, by simpa using passed, rfl⟩

namespace PlannedUnit

section

variable {u : PlannedUnit} {start finish : Moment} {cache : Cache}

theorem report_error : (u.report start finish cache).error =
    unitFailure? (u.report start finish cache).discoveries := rfl

theorem report_status : (u.report start finish cache).status =
    if (u.report start finish cache).error.isSome then .error else .completed := rfl

theorem report_status_error :
    (u.report start finish cache).status = .error ↔ (u.report start finish cache).error ≠ none := by
  rw [report_status]
  cases (u.report start finish cache).error <;> simp

variable (planned : u.catalog.Planned)
  (settled : ∀ d ∈ u.catalog.discoveries, ∃ r, u.catalog.Settled cache d r)

include planned settled

theorem mem_report_discoveries {r : DiscoveryResult} :
    r ∈ (u.report start finish cache).discoveries ↔
      ∃ d ∈ u.catalog.discoveries, u.catalog.Settled cache d r := by
  rw [report, List.mem_filterMap]
  constructor
  · rintro ⟨id, listed, found⟩
    obtain ⟨d, known, rfl⟩ := planned.mem_order.mp listed
    obtain ⟨q, own⟩ := settled d known
    obtain rfl := Option.some.inj (own.kept.symm.trans found)
    exact ⟨d, known, own⟩
  · rintro ⟨d, known, own⟩
    exact ⟨d.id, planned.mem_order.mpr ⟨d, known, rfl⟩, own.kept⟩

theorem report_ids :
    (u.report start finish cache).discoveries.map (·.discoveryId) = u.catalog.plan.order := by
  rw [report, List.map_filterMap]
  have each : ∀ id ∈ u.catalog.plan.order,
      (cache.get? id).map (·.discoveryId) = some id := by
    intro id listed
    obtain ⟨d, known, rfl⟩ := planned.mem_order.mp listed
    obtain ⟨r, own⟩ := settled d known
    rw [own.kept, Option.map_some, own.own]
  exact (List.filterMap_congr each).trans List.filterMap_some

theorem rootsFailed_iff :
    u.catalog.RootsFailed (u.report start finish cache).discoveries ↔
      u.catalog.discoveries ≠ [] ∧ ∀ d ∈ u.catalog.discoveries, d.isRoot = true →
        ∃ q, cache.get? d.id = some q ∧ q.status = .failed := by
  refine and_congr_right fun _ => forall₂_congr fun d known => imp_congr_right fun _ => ?_
  simp only [mem_report_discoveries planned settled]
  constructor
  · rintro ⟨r, ⟨e, _, own⟩, same, failed⟩
    exact ⟨r, by rw [← same, own.own, own.kept], failed⟩
  · rintro ⟨r, found, failed⟩
    obtain ⟨q, own⟩ := settled d known
    obtain rfl := Option.some.inj (own.kept.symm.trans found)
    exact ⟨q, ⟨d, known, own⟩, own.own, failed⟩

theorem inner_skipped (failed : u.catalog.RootsFailed (u.report start finish cache).discoveries)
    {d : Discovery} (known : d ∈ u.catalog.discoveries) (inner : d.isRoot = false)
    {r : DiscoveryResult} (own : u.catalog.Settled cache d r) : r.status = .skipped :=
  own.inner_skipped planned known inner ((rootsFailed_iff planned settled).mp failed).2

/-- A unit ends in error exactly where all roots of its catalog failed. -/
theorem report_error_iff :
    (u.report start finish cache).status = .error ↔
      u.catalog.RootsFailed (u.report start finish cache).discoveries := by
  rw [report_status_error, report_error, Ne, unitFailure?_eq_none, not_or]
  constructor
  · rintro ⟨silent, some_failed⟩
    refine (rootsFailed_iff planned settled).mpr ⟨?_, fun d known root => ?_⟩
    · rintro none_known
      refine some_failed fun r member => ?_
      obtain ⟨d, known, _⟩ := (mem_report_discoveries planned settled).mp member
      rw [none_known] at known
      cases known
    · obtain ⟨r, own⟩ := settled d known
      refine ⟨r, own.kept, (own.root_ran planned known root).resolve_left fun emitted => ?_⟩
      exact silent ⟨r, (mem_report_discoveries planned settled).mpr ⟨d, known, own⟩, emitted⟩
  · intro failed
    constructor
    · rintro ⟨r, member, emitted⟩
      obtain ⟨d, known, own⟩ := (mem_report_discoveries planned settled).mp member
      cases top : d.isRoot with
      | true =>
        obtain ⟨q, found, lost⟩ := ((rootsFailed_iff planned settled).mp failed).2 d known top
        obtain rfl := Option.some.inj (own.kept.symm.trans found)
        rw [emitted] at lost
        cases lost
      | false =>
        have skipped := inner_skipped planned settled failed known top own
        rw [emitted] at skipped
        cases skipped
    · intro sound
      obtain ⟨root, known, top⟩ := Catalog.exists_root planned failed.1
      obtain ⟨r, member, _, lost⟩ := failed.2 root known top
      exact sound r member lost

/-- The failure a unit in error is named after: that of the first root. -/
theorem report_error_names
    (failed : u.catalog.RootsFailed (u.report start finish cache).discoveries) :
    ∃ root ∈ u.catalog.discoveries, root.isRoot = true ∧
      (∀ d ∈ u.catalog.discoveries, d.isRoot = true → root.id ≤ d.id) ∧
      ∃ r ∈ (u.report start finish cache).discoveries, r.discoveryId = root.id ∧
        ∃ reason, r.reason = some reason ∧ (u.report start finish cache).error =
          some ("discovery '" ++ root.id ++ "' failed: " ++ reason.message) := by
  have told := report_status_error.mp ((report_error_iff planned settled).mpr failed)
  obtain ⟨text, error⟩ := Option.ne_none_iff_exists'.mp told
  have failure := error
  rw [report_error] at failure
  obtain ⟨first, before, after, split, lost, passed, rfl⟩ := unitFailure?_eq_some failure
  have member : first ∈ (u.report start finish cache).discoveries := by simp [split]
  obtain ⟨root, known, own⟩ := (mem_report_discoveries planned settled).mp member
  have top : root.isRoot = true := by
    by_contra inner
    have skipped := inner_skipped planned settled failed known (by simpa using inner) own
    rw [lost] at skipped
    cases skipped
  refine ⟨root, known, top, fun d listed other => ?_, first, member, own.own, ?_⟩
  · -- Another root failed too, so it stands after the first failure of the plan.
    obtain ⟨r, inside, same, also⟩ := failed.2 d listed other
    have sorted := Plan.order_sorted planned
    have ids : (u.report start finish cache).discoveries.map (·.discoveryId) =
        u.catalog.plan.order := report_ids planned settled
    rw [← ids, split, List.map_append, List.map_cons] at sorted
    have later := (List.pairwise_cons.mp (List.pairwise_append.mp sorted).2.1).1
    rw [split, List.mem_append, List.mem_cons] at inside
    rcases inside with earlier | rfl | behind
    · exact absurd also (passed r earlier)
    · rw [← own.own, same]
    · have ordered := later _ (List.mem_map_of_mem behind)
      rw [same, own.own, Plan.Before, Catalog.waveOf_root planned known top,
        Catalog.waveOf_root planned listed other] at ordered
      rcases ordered with impossible | ⟨_, below⟩
      · omega
      · exact le_of_lt below
  · obtain ⟨message, reason⟩ := own.reason lost
    refine ⟨_, reason, ?_⟩
    rw [error, reason, own.own]
    simp only [String.append_assoc]
    rfl

end

/-- What the roots of its catalog make of the report of a unit. -/
structure RootsDecide (u : PlannedUnit) (report : UnitReport) : Prop where
  listed : report.discoveries.map (·.discoveryId) = u.catalog.plan.order
  once : u.catalog.plan.order.Nodup ∧
    u.catalog.plan.order.Perm (u.catalog.discoveries.map (·.id))
  error_iff : report.status = .error ↔ u.catalog.RootsFailed report.discoveries
  names_root : report.status = .error → ∃ root ∈ u.catalog.discoveries, root.isRoot = true ∧
    (∀ d ∈ u.catalog.discoveries, d.isRoot = true → root.id ≤ d.id) ∧
    ∃ r ∈ report.discoveries, r.discoveryId = root.id ∧ ∃ reason, r.reason = some reason ∧
      report.error = some ("discovery '" ++ root.id ++ "' failed: " ++ reason.message)
  inner_skipped : report.status = .error → ∀ d ∈ u.catalog.discoveries, d.isRoot = false →
    ∃ r ∈ report.discoveries, r.discoveryId = d.id ∧ r.status = .skipped
  checks_skipped : report.status = .error →
    List.Forall₂ Check.SkipRow u.catalog.checks report.checks
  otherwise : ¬u.catalog.RootsFailed report.discoveries →
    report.status = .completed ∧ report.error = none

theorem rootsDecide_report {u : PlannedUnit} {start finish : Moment} {cache : Cache}
    {doc : Document} (compiled : doc.compile = .ok u.catalog)
    (settled : ∀ d ∈ u.catalog.discoveries, ∃ r, u.catalog.Settled cache d r) :
    u.RootsDecide (u.report start finish cache) := by
  have planned := Catalog.planned_of_compile compiled
  have error_iff : (u.report start finish cache).status = .error ↔ _ :=
    report_error_iff planned settled
  refine ⟨report_ids planned settled, ⟨planned.order_nodup, planned.order_perm⟩, error_iff,
    fun failed => report_error_names planned settled (error_iff.mp failed),
    fun failed d known inner => ?_, u.skips_of_error compiled, fun sound => ?_⟩
  · obtain ⟨r, own⟩ := settled d known
    exact ⟨r, (mem_report_discoveries planned settled).mpr ⟨d, known, own⟩, own.own,
      inner_skipped planned settled (error_iff.mp failed) known inner own⟩
  · have quiet : (u.report start finish cache).error = none := by
      rw [← error_iff, report_status_error, not_not] at sound
      exact sound
    rw [report_status, quiet]
    exact ⟨rfl, rfl⟩

/-- However its calls come in turn, a unit of a compiled catalog whose client always comes back
lists each discovery once, in the order of the plan, and ends in error exactly where all roots
failed. It is then named after the first root, all other discoveries are skipped, and so is
every check. -/
theorem report_fails_iff_roots_fail {σ : Type} {client : Client σ} (quiet : client.NeverCrashes)
    {u : PlannedUnit} {doc : Document} (compiled : doc.compile = .ok u.catalog)
    (start finish : Moment) :
    (∀ context parallelism s outcome t,
      Catalog.Discovers client context u.catalog parallelism s outcome t →
      ∃ cache, outcome = some cache ∧ u.RootsDecide (u.report start finish cache)) ∧
    ∀ config s, ∃ report, (u.run client config start finish s).1 = some report ∧
      u.RootsDecide report := by
  have decided : ∀ context parallelism s outcome t,
      Catalog.Discovers client context u.catalog parallelism s outcome t →
      ∃ cache, outcome = some cache ∧ u.RootsDecide (u.report start finish cache) := by
    intro context parallelism s outcome t run
    obtain ⟨cache, ended, settled⟩ := run.settled quiet (Catalog.planned_of_compile compiled)
    exact ⟨cache, ended, rootsDecide_report compiled settled⟩
  refine ⟨decided, fun config s => ?_⟩
  obtain ⟨cache, ended, roots⟩ := decided _ _ _ _ _ (Catalog.discover_discovers client
    (u.context config.retry) u.catalog (max 1 config.parallelism) s)
  have ran : (u.run client config start finish s).1 =
      (u.catalog.discover client (u.context config.retry) (max 1 config.parallelism) s).1.map
        (u.report start finish) := rfl
  exact ⟨u.report start finish cache, by rw [ran, ended, Option.map_some], roots⟩

/-- Two roots, and tags for each of the keys with a check on them. -/
def strongroomDocument : Document :=
  { provider := "north", service := "vault"
    discovery := [Catalog.listing "tags" (some "keys") [], Catalog.listing "roles" none [],
      Catalog.listing "keys" none []]
    checks := [{ checkId := "tags-set", forEach := "tags"
                 conditions := [Catalog.fieldEntry "set" "yes"] }] }

def strongroom : Catalog :=
  { provider := "north", service := "vault", coverage := .regional, version := none,
    discoveries := [Catalog.lister "tags" (some "keys") [], Catalog.lister "roles" none [],
      Catalog.lister "keys" none []]
    checks := [⟨"tags-set", "tags-set", .medium, "tags", .every, [Catalog.fieldIs "set" "yes"]⟩]
    plan := ⟨[["keys", "roles"], ["tags"]]⟩ }

theorem strongroom_compiled : strongroomDocument.compile = .ok strongroom := by
  have planned : Plan.build (strongroomDocument.discovery.map Document.dependency) =
      .ok strongroom.plan := by cbv
  unfold Document.compile
  rw [planned]
  rfl

/-- Some resources must not be listed, the others are not there. -/
def refusing (resources : List String) : Client Unit :=
  .ofFunction "refusing" fun call =>
    if call.request.resource ∈ resources then
      .error (.fatal ("list_" ++ call.request.resource) "forbidden")
    else .ok (.array [])

theorem refusing_neverCrashes (resources : List String) : (refusing resources).NeverCrashes :=
  (Client.ofFunction_answersBy "refusing" _).neverCrashes

def strongroomUnit : PlannedUnit := ⟨⟨"main", "east", "vault"⟩, strongroom⟩

def strongroomRun (refused : List String) : Option UnitReport :=
  (strongroomUnit.run (refusing refused)
    { accounts := ["main"], regions := ["east"], workers := 1 } ⟨0⟩ ⟨250⟩ ⟨(), [], false⟩).1

/-- With both roots refused the unit is named after the first one; with one of them refused
it is complete. -/
theorem strongroom_roots :
    strongroomDocument.compile = .ok strongroomUnit.catalog ∧
    (∀ refused, (refusing refused).NeverCrashes ∧ ∃ report, strongroomRun refused = some report ∧
      strongroomUnit.RootsDecide report) ∧
    (strongroomRun ["roles", "keys"]).map (fun r => (r.error, r.checks.map (·.status))) =
      some (some "discovery 'keys' failed: Vendor error in 'list_keys': forbidden", [.skip]) ∧
    (strongroomRun ["keys"]).map (fun r => (r.status, r.discoveries.map (·.status))) =
      some (.completed, [.failed, .emitted, .skipped]) := by
  refine ⟨strongroom_compiled, fun refused => ⟨refusing_neverCrashes refused, ?_⟩,
    by decide +kernel, by decide +kernel⟩
  exact (report_fails_iff_roots_fail (u := strongroomUnit) (refusing_neverCrashes refused)
    strongroom_compiled ⟨0⟩ ⟨250⟩).2 _ _

end PlannedUnit

end CloudAudit
