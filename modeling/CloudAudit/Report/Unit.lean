import CloudAudit.Check.Counts
import CloudAudit.Discovery.Result
import CloudAudit.Report.Moment

/-!
Units of a scan, one per account, region and service, and what became of each.
-/

namespace CloudAudit

-- Zero is core's, also where an algebra library is imported.
attribute [local instance (high)] Zero.ofOfNat0

structure ScanUnit where
  account : String
  region : String
  service : String
  deriving DecidableEq, Repr, Inhabited

namespace ScanUnit

/-- The region of services that know no regions. -/
def globalRegion : String := "global"

def render (u : ScanUnit) : String := u.account ++ "/" ++ u.region ++ "/" ++ u.service

end ScanUnit

inductive UnitStatus where
  | completed
  | error
  | cancelled
  deriving DecidableEq, Repr, Inhabited

namespace UnitStatus

def name : UnitStatus → String
  | completed => "completed"
  | error => "error"
  | cancelled => "cancelled"

def all : List UnitStatus := [completed, error, cancelled]

end UnitStatus

/-- Everything one unit produced. -/
structure UnitReport where
  unit : ScanUnit
  provider : String
  status : UnitStatus
  startedAt : Option Moment := none
  finishedAt : Option Moment := none
  discoveries : List DiscoveryResult := []
  checks : List CheckResult := []
  error : Option String := none
  deriving Inhabited

namespace UnitReport

/-- Report of a unit that was never started. -/
def cancelled (unit : ScanUnit) (provider : String) : UnitReport :=
  { unit, provider, status := .cancelled }

/-- Report of a unit that produced none of its own. -/
def failed (unit : ScanUnit) (provider error : String) : UnitReport :=
  { unit, provider, status := .error, error := some error }

def counts (r : UnitReport) : StatusCounts := .ofResults r.checks

/-- Milliseconds from start to end; zero where one of them is unknown. -/
def durationMs (r : UnitReport) : Nat :=
  match r.startedAt, r.finishedAt with
  | some start, some finish => start.elapsed finish
  | _, _ => 0

def discovery? (r : UnitReport) (id : String) : Option DiscoveryResult :=
  r.discoveries.find? (·.discoveryId = id)

def itemCount (r : UnitReport) : Nat := (r.discoveries.map (·.items.length)).sum

end UnitReport

end CloudAudit
