import CloudAudit.Action
import CloudAudit.Catalog.Document
import CloudAudit.Operator
import CloudAudit.Param
import CloudAudit.Plan

/-!
Compiled catalogs: actions, templates, paths and operators are read, and the order of discovery is
planned.
-/

namespace CloudAudit

/-- One vendor call; its response is bound under `saveAs`. -/
structure Call where
  action : Action
  params : List (String × Param)
  saveAs : String
  deriving Inhabited

inductive Emit where
  /-- One item per iteration. -/
  | single (fields : List (String × Param))
  /-- One item per element of a collection, bound under a name. -/
  | each (collection : Template) (bindAs : String) (fields : List (String × Param))
  deriving Inhabited

structure Discovery where
  id : String
  calls : List Call
  /-- The discovery whose items are iterated over. -/
  forEach : Option String
  dependsOn : List String
  emit : Option Emit
  onError : FailurePolicy
  idField : Option String

instance : Inhabited Discovery := ⟨⟨"", [], none, [], none, .fail, none⟩⟩

structure Condition where
  path : Path
  operator : Operator
  expected : Json

structure Check where
  checkId : String
  title : String
  severity : Severity
  forEach : String
  logic : Logic
  conditions : List Condition

/-- A catalog ready to run. -/
structure Catalog where
  provider : String
  service : String
  coverage : Coverage
  version : Option String
  discoveries : List Discovery
  checks : List Check
  plan : Plan
  deriving Inhabited

namespace Discovery

/-- Whether a discovery waits directly on an id. -/
def waitsOn (d : Discovery) (id : String) : Bool :=
  d.forEach == some id || d.dependsOn.contains id

/-- Whether a discovery waits on nothing. -/
def isRoot (d : Discovery) : Bool := d.forEach.isNone && d.dependsOn.isEmpty

end Discovery

namespace Catalog

def discovery? (c : Catalog) (id : String) : Option Discovery := c.discoveries.find? (·.id = id)

def isGlobal (c : Catalog) : Bool := c.coverage = .global

/-- Ids that wait directly on `current` and were not found yet, in document order. -/
def newDependents (ds : List Discovery) (found : List String) (current : String) : List String :=
  (ds.filter fun d => d.waitsOn current && !found.contains d.id).map (·.id)

/--
Collects dependents depth first: the last id found is looked at next. Each id enters the frontier
once, so the number of discoveries bounds the steps.
-/
def collectDependents (ds : List Discovery) : Nat → List String → List String → List String
  | 0, found, _ => found
  | _ + 1, found, [] => found
  | steps + 1, found, current :: frontier =>
    let fresh := newDependents ds found current
    collectDependents ds steps (found ++ fresh) (fresh.reverse ++ frontier)

/-- Ids that wait on `id`, directly or through others. -/
def dependentsOf (c : Catalog) (id : String) : List String :=
  collectDependents c.discoveries (c.discoveries.length + 1) [] [id]

end Catalog

end CloudAudit
