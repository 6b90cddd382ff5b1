import CloudAudit.Report.Unit

/-!
Reports of whole scans and their summary.
-/

namespace CloudAudit

/-- The machine a scan ran on. -/
structure Host where
  hostname : String
  system : String
  username : String
  process : Option String
  deriving Repr, Inhabited

def Host.toJson (h : Host) : Json :=
  .object [("hostname", .string h.hostname), ("os_info", .string h.system),
    ("username", .string h.username), ("process_info", Json.ofOption h.process)]

structure ScanReport where
  scanId : String
  startedAt : Moment
  finishedAt : Moment
  host : Host
  units : List UnitReport
  deriving Inhabited

/-- Distinct texts in ascending order. -/
def ascending (texts : List String) : List String :=
  texts.eraseDups.mergeSort fun a b => decide (a ≤ b)

/-- The summary of a scan. -/
structure ScanSummary where
  scanId : String
  totals : StatusCounts
  completed : Nat
  errors : Nat
  cancelled : Nat
  accounts : List String
  regions : List String
  services : List String
  providers : List String
  /-- Failed rows by name of severity, in ascending order of names. -/
  failuresBySeverity : List (String × Nat)

namespace ScanReport

def totals (r : ScanReport) : StatusCounts :=
  r.units.foldl (fun c u => c.merge u.counts) {}

def durationMs (r : ScanReport) : Nat := r.startedAt.elapsed r.finishedAt

/-- First report of a unit. -/
def unit? (r : ScanReport) (u : ScanUnit) : Option UnitReport := r.units.find? (·.unit = u)

def countUnits (r : ScanReport) (s : UnitStatus) : Nat := r.units.countP (·.status = s)

/-- Severities of failed rows, in order. -/
def failedSeverities (r : ScanReport) : List Severity :=
  r.units.flatMap fun u => (u.checks.filter (·.status = .fail)).map (·.severity)

/-- How often each severity failed; severities that never failed are left out. -/
def failuresBySeverity (r : ScanReport) : List (String × Nat) :=
  let failed := r.failedSeverities.map Severity.name
  (ascending failed).map fun name => (name, failed.count name)

def summary (r : ScanReport) : ScanSummary :=
  { scanId := r.scanId, totals := r.totals, completed := r.countUnits .completed,
    errors := r.countUnits .error, cancelled := r.countUnits .cancelled,
    accounts := ascending (r.units.map (·.unit.account)),
    regions := ascending (r.units.map (·.unit.region)),
    services := ascending (r.units.map (·.unit.service)),
    providers := ascending (r.units.map (·.provider)),
    failuresBySeverity := r.failuresBySeverity }

end ScanReport

def ScanSummary.toJson (s : ScanSummary) : Json :=
  .object [("scan_id", .string s.scanId), ("totals", s.totals.toJson),
    ("units_completed", Json.nat s.completed), ("units_error", Json.nat s.errors),
    ("units_cancelled", Json.nat s.cancelled), ("accounts", Json.ofStrings s.accounts),
    ("regions", Json.ofStrings s.regions), ("services", Json.ofStrings s.services),
    ("providers", Json.ofStrings s.providers),
    ("failures_by_severity", .object (s.failuresBySeverity.map fun (k, n) => (k, Json.nat n)))]

end CloudAudit
