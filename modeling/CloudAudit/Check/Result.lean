import CloudAudit.Catalog.Basic
import CloudAudit.Json.Print

/-!
Rows of a check report: one verdict each, with the outcomes of all conditions where there were any.
-/

namespace CloudAudit

inductive CheckStatus where
  | pass
  | fail
  | skip
  | error
  deriving DecidableEq, Repr, Inhabited

namespace CheckStatus

def name : CheckStatus → String
  | pass => "pass"
  | fail => "fail"
  | skip => "skip"
  | error => "error"

def all : List CheckStatus := [pass, fail, skip, error]

end CheckStatus

/-- Outcome of one condition against one item. -/
structure ConditionOutcome where
  path : String
  operator : Operator
  expected : Json
  /-- Absent when the path leads nowhere. -/
  actual : Option Json
  passed : Bool

def ConditionOutcome.toJson (o : ConditionOutcome) : Json :=
  .object [("path", .string o.path), ("operator", .string o.operator.name),
    ("expected", o.expected), ("actual", o.actual.getD .null), ("passed", .bool o.passed)]

/-- One row. A skipped check names no resource. -/
structure CheckResult where
  checkId : String
  title : String
  severity : Severity
  resourceId : Option String := none
  status : CheckStatus
  detail : String
  conditions : List ConditionOutcome := []
  warnings : List String := []

namespace CheckResult

/-- A row without resource: the check could not look at anything. -/
def skip (c : Check) (detail : String) : CheckResult :=
  { checkId := c.checkId, title := c.title, severity := c.severity, status := .skip, detail }

/-- A row for a resource that could not be looked at. -/
def error (c : Check) (resourceId : Option String) (detail : String) : CheckResult :=
  { checkId := c.checkId, title := c.title, severity := c.severity, resourceId, status := .error,
    detail }

def passedDetail : String := "all conditions satisfied"

/-- Names the paths of the conditions that failed. -/
def failedDetail (outcomes : List ConditionOutcome) : String :=
  "conditions not satisfied: " ++
    String.intercalate ", " ((outcomes.filter fun o => !o.passed).map (·.path))

/-- A row for a resource that was looked at. -/
def evaluated (c : Check) (resourceId : String) (passed : Bool) (conditions : List ConditionOutcome)
    (warnings : List String) : CheckResult :=
  { checkId := c.checkId, title := c.title, severity := c.severity, resourceId := some resourceId,
    status := if passed then .pass else .fail
    detail := if passed then passedDetail else failedDetail conditions
    conditions, warnings }

/-- Outcomes and warnings are left out where there are none. -/
def toJson (r : CheckResult) : Json :=
  let outcomes := if r.conditions.isEmpty then []
    else [("conditions", .array (r.conditions.map ConditionOutcome.toJson))]
  let warnings := if r.warnings.isEmpty then [] else [("warnings", Json.ofStrings r.warnings)]
  .object ([("check_id", .string r.checkId), ("title", .string r.title),
    ("severity", .string r.severity.name), ("resource_id", Json.ofOption r.resourceId),
    ("status", .string r.status.name), ("detail", .string r.detail)] ++ outcomes ++ warnings)

end CheckResult

end CloudAudit
