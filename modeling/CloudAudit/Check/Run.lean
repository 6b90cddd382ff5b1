import CloudAudit.Check.Result
import CloudAudit.Discovery.Result
import CloudAudit.Evaluate
import CloudAudit.Resolve

/-!
Running checks on what was discovered. A check whose discovery can be looked at has one row per item
and one per failed iteration; any other check has a single row that says why it was skipped.
-/

namespace CloudAudit

def unavailableDetail : String := "discovery unavailable"

def noParentItemsDetail : String := "parent discovery produced no items"

namespace Condition

/-- The value a condition looks at. -/
def actual (k : Condition) (item : Item) : Option Json := item.resolve? k.path

def verdict (k : Condition) (item : Item) : Verdict :=
  k.operator.evaluate (k.actual item) k.expected

def outcome (k : Condition) (item : Item) : ConditionOutcome :=
  { path := k.path.text, operator := k.operator, expected := k.expected, actual := k.actual item,
    passed := (k.verdict item).passed }

/-- A warning with its path, where the values do not fit the operator. -/
def warning? (k : Condition) (item : Item) : Option String :=
  (k.verdict item).warning.map fun w => k.path.text ++ ": " ++ k.operator.warningText w

end Condition

/-- Whether outcomes satisfy a check: all of them, or at least one. -/
def Logic.holds (l : Logic) (outcomes : List ConditionOutcome) : Bool :=
  match l with
  | .every => outcomes.all (·.passed)
  | .any => outcomes.any (·.passed)

namespace Check

/-- The row of one item. -/
def evaluateItem (c : Check) (resourceId : String) (item : Item) : CheckResult :=
  let outcomes := c.conditions.map fun k => k.outcome item
  .evaluated c resourceId (c.logic.holds outcomes) outcomes
    (c.conditions.filterMap fun k => k.warning? item)

/-- The row of one failed iteration; it names the parent item. -/
def failureRow (c : Check) (f : IterationFailure) : CheckResult :=
  .error c f.parentResourceId ("discovery iteration failed: " ++ f.error)

/-- Why a check has nothing to look at. -/
def skipDetail (r : Option DiscoveryResult) : String :=
  match r with
  | none => unavailableDetail
  | some r =>
    if r.isEmptyParentSkip then noParentItemsDetail
    else match r.reason with
      | some reason => unavailableDetail ++ ": " ++ reason.message
      | none => unavailableDetail

/-- Rows of one check. -/
def run (c : Check) (cache : Cache) : List CheckResult :=
  match (cache.get? c.forEach).filter (·.isEmitted) with
  | some r => (r.pairs.map fun (id, item) => c.evaluateItem id item) ++ r.failures.map c.failureRow
  | none => [.skip c (skipDetail (cache.get? c.forEach))]

end Check

/-- Rows of all checks of a catalog, in order. -/
def Catalog.runChecks (c : Catalog) (cache : Cache) : List CheckResult :=
  c.checks.flatMap fun check => check.run cache

end CloudAudit
