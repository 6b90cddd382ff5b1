import CloudAudit.Proofs.CheckRows

set_option autoImplicit false

/- Which resource a row is about. A verdict is about an item, and the row of a failed
iteration about the parent item, which only a root does not have. -/
namespace CloudAudit

/-- What a row on a discovery names. -/
structure Discovery.Names (u : UnitContext) (cache : Cache) (d : Discovery) (row : CheckResult) :
    Prop where
  absent_iff : row.resourceId = none ↔
    row.status = .skip ∨ row.status = .error ∧ d.forEach = none ∧ d.onError = .proceed
  item : row.status = .pass ∨ row.status = .fail → ∃ r pair, cache.get? d.id = some r ∧
    pair ∈ r.pairs ∧ row.resourceId = some pair.1
  parent : row.status = .error → ∀ parent, d.forEach = some parent →
    ∃ q pair earlier log e, cache.get? parent = some q ∧ pair ∈ q.pairs ∧
      row.resourceId = some pair.1 ∧
      Program.Path (d.runTurn u (Discovery.unitScope u earlier) (some pair)) log
        (some (.error e)) ∧
      row.detail = "discovery iteration failed: " ++ e.message

section

variable {u : UnitContext} {cache : Cache} {d : Discovery} {r : DiscoveryResult} {check : Check}
  {row : CheckResult}

theorem Check.SkipRow.names (skips : SkipRow check row) : d.Names u cache row := by
  refine ⟨by simp [skips.resource, skips.status], ?_, ?_⟩
  · intro verdict
    simp [skips.status] at verdict
  · intro failed
    simp [skips.status] at failed

theorem Check.ItemRow.names {pair : String × Item} (shown : ItemRow check pair.1 pair.2 row)
    (known : cache.get? d.id = some r) (member : pair ∈ r.pairs) : d.Names u cache row := by
  have not_error : row.status ≠ .error := by
    rcases shown.status with passed | failed
    · simp [passed]
    · simp [failed]
  have not_skip : row.status ≠ .skip := by
    rcases shown.status with passed | failed
    · simp [passed]
    · simp [failed]
  refine ⟨by simp [shown.resource, not_error, not_skip], ?_, ?_⟩
  · exact fun _ => ⟨r, pair, known, member, shown.resource⟩
  · exact fun failed => absurd failed not_error

theorem Check.FailureRow.names {f : IterationFailure} (shown : FailureRow check f row)
    (held : d.Held u cache r) (member : f ∈ r.failures) : d.Names u cache row := by
  obtain ⟨policy, earlier, turns, turn, given, inside, parent, log, e, way, told⟩ :=
    held.failed member
  have named : row.resourceId = turn.map (·.1) := shown.resource.trans parent
  refine ⟨?_, ?_, ?_⟩
  · rw [named, Option.map_eq_none_iff, given.parent_iff inside]
    simp [shown.status, policy]
  · intro verdict
    simp [shown.status] at verdict
  · intro _ parent iterates
    cases given with
    | root single =>
      rw [single] at iterates
      cases iterates
    | @each _ q same known emitted =>
      obtain rfl := Option.some.inj (same.symm.trans iterates)
      obtain ⟨pair, listed, rfl⟩ := List.mem_map.mp inside
      exact ⟨q, pair, earlier, log, e, known, listed, named, way, by rw [shown.detail, told]⟩

end

namespace Catalog

/-- Every row of a compiled catalog names a resource, unless its check was skipped or an
iteration without parent item failed. -/
theorem discovers_names {σ : Type} {client : Client σ} (quiet : client.NeverCrashes)
    {doc : Document} {c : Catalog} (compiled : doc.compile = .ok c) {u : UnitContext}
    {parallelism : Nat} {s t : Session σ} {outcome : Option Cache}
    (run : Discovers client u c parallelism s outcome t) :
    ∃ cache, outcome = some cache ∧ ∀ row ∈ c.runChecks cache,
      ∃ check ∈ c.checks, ∃ d ∈ c.discoveries, d.id = check.forEach ∧
        row.checkId = check.checkId ∧ d.Names u cache row := by
  obtain ⟨cache, ended, held⟩ := run.held quiet (planned_of_compile compiled)
  refine ⟨cache, ended, fun row member => ?_⟩
  obtain ⟨check, listed, member⟩ := List.mem_flatMap.mp member
  obtain ⟨d, known, same⟩ := exists_discovery compiled listed
  obtain ⟨r, found, result⟩ := held d known
  refine ⟨check, listed, d, known, same, ?_⟩
  have filled := conditions_ne_nil compiled listed
  rcases Check.mem_run filled (same ▸ found) member with
    ⟨pair, inside, shown⟩ | ⟨f, inside, shown⟩ | skips
  · exact ⟨congrArg Prod.fst shown.head, shown.names found inside⟩
  · exact ⟨congrArg Prod.fst shown.head, shown.names result inside⟩
  · exact ⟨congrArg Prod.fst skips.head, skips.names⟩

/-- Of the rows of the fleet two name nothing: the audits could not be listed, which is an
error without parent item, and there are no keys to look at. -/
theorem fleet_names :
    fleetClient.NeverCrashes ∧ fleetDocument.compile = .ok fleet ∧
    ∃ cache, fleetRun.1 = some cache ∧
      (∀ row ∈ fleet.runChecks cache, ∃ check ∈ fleet.checks, ∃ d ∈ fleet.discoveries,
        d.id = check.forEach ∧ row.checkId = check.checkId ∧ d.Names estateUnit cache row) ∧
      ((fleet.runChecks cache).filter fun row => row.resourceId.isNone).map
        (fun row => (row.checkId, row.status)) =
        [("audits-kept", .error), ("keys-fresh", .skip)] := by
  obtain ⟨cache, ended, named⟩ := discovers_names fleetClient_neverCrashes fleet_compiled
    (discover_discovers fleetClient estateUnit fleet 2 ⟨(), [], false⟩)
  refine ⟨fleetClient_neverCrashes, fleet_compiled, cache, ended, named, ?_⟩
  have told : fleetRun.1.map (fun cache =>
      ((fleet.runChecks cache).filter fun row => row.resourceId.isNone).map
        fun row => (row.checkId, row.status)) =
      some [("audits-kept", .error), ("keys-fresh", .skip)] := by decide +kernel
  rw [show fleetRun.1 = some cache from ended] at told
  exact Option.some.inj told

/-- A row may name nothing without being a skip: that of the audits is an error. -/
theorem fleet_nameless_error :
    fleetClient.NeverCrashes ∧ fleetDocument.compile = .ok fleet ∧
    ∃ cache, fleetRun.1 = some cache ∧
      ¬∀ row ∈ fleet.runChecks cache, row.resourceId = none ↔ row.status = .skip := by
  have told : fleetRun.1.map (fun cache => (fleet.runChecks cache).all fun row =>
      row.resourceId.isNone == decide (row.status = .skip)) = some false := by decide +kernel
  obtain ⟨cache, ended, differs⟩ := Option.map_eq_some_iff.mp told
  refine ⟨fleetClient_neverCrashes, fleet_compiled, cache, ended, fun agree => ?_⟩
  obtain ⟨row, member, differs⟩ := List.all_eq_false.mp differs
  have same := agree row member
  apply differs
  rw [beq_iff_eq, Bool.eq_iff_iff, Option.isNone_iff_eq_none, decide_eq_true_eq]
  exact same

end Catalog

end CloudAudit
