import CloudAudit.Check.Run
import CloudAudit.Discovery.Waves
import CloudAudit.Scan.Matrix

/-!
Running one unit: all its discoveries, then its checks.
-/

namespace CloudAudit

/-- Why a unit counts as failed: something failed and nothing was emitted. -/
def unitFailure? (discoveries : List DiscoveryResult) : Option String :=
  if discoveries.any (·.isEmitted) then none
  else (discoveries.find? (·.status = .failed)).map fun d =>
    "discovery '" ++ d.discoveryId ++ "' failed" ++ match d.reason with
      | some reason => ": " ++ reason.message
      | none => ""

namespace PlannedUnit

def context (u : PlannedUnit) (retry : RetryConfig) : UnitContext :=
  { place := ⟨u.catalog.provider, u.unit.service, u.unit.account, u.unit.region⟩, retry }

/-- The report of a unit that ran between two moments, made from the results of its discoveries. -/
def report (u : PlannedUnit) (startedAt finishedAt : Moment) (cache : Cache) : UnitReport :=
  let discoveries := u.catalog.plan.order.filterMap cache.get?
  let failure := unitFailure? discoveries
  { unit := u.unit, provider := u.catalog.provider
    status := if failure.isSome then .error else .completed
    startedAt := some startedAt, finishedAt := some finishedAt
    discoveries, checks := u.catalog.runChecks cache, error := failure }

/-- Runs a unit; none when the client crashes and nothing catches it. -/
def run {σ : Type} (client : Client σ) (config : ScanConfig) (startedAt finishedAt : Moment)
    (u : PlannedUnit) (s : Session σ) : Option UnitReport × Session σ :=
  let (cache, s) := u.catalog.discover client (u.context config.retry) (max 1 config.parallelism) s
  (cache.map (u.report startedAt finishedAt), s)

end PlannedUnit

end CloudAudit
