import CloudAudit.Json.Basic

/-!
Catalog documents as they are authored: one cloud service, the discoveries that collect its
resources, and the checks on what was collected.
-/

namespace CloudAudit

/-- Whether a service is scanned once per region or once per account. -/
inductive Coverage where
  | regional
  | global
  deriving DecidableEq, Repr, Inhabited

/-- What a failed iteration does to its discovery. -/
inductive FailurePolicy where
  /-- Record the failure and go on with the next iteration. -/
  | proceed
  /-- Fail the discovery. -/
  | fail
  deriving DecidableEq, Repr

inductive Severity where
  | critical
  | high
  | medium
  | low
  | info
  deriving DecidableEq, Repr, Inhabited

/-- How the conditions of a check combine. -/
inductive Logic where
  | every
  | any
  deriving DecidableEq, Repr, Inhabited

namespace Coverage

def name : Coverage → String
  | regional => "regional"
  | global => "global"

/-- Accepted spellings. -/
def spellings : List (String × Coverage) := [("regional", regional), ("global", global)]

/-- The name with a capital letter. -/
def title : Coverage → String
  | regional => "Regional"
  | global => "Global"

end Coverage

namespace FailurePolicy

def name : FailurePolicy → String
  | proceed => "continue"
  | fail => "fail"

def spellings : List (String × FailurePolicy) := [("continue", proceed), ("fail", fail)]

end FailurePolicy

namespace Severity

def name : Severity → String
  | critical => "critical"
  | high => "high"
  | medium => "medium"
  | low => "low"
  | info => "info"

def all : List Severity := [critical, high, medium, low, info]

def spellings : List (String × Severity) := all.map fun s => (s.name, s)

end Severity

namespace Logic

def name : Logic → String
  | every => "AND"
  | any => "OR"

def spellings : List (String × Logic) :=
  [("AND", every), ("and", every), ("And", every), ("OR", any), ("or", any), ("Or", any)]

end Logic

/-- One vendor call of a discovery. -/
structure CallEntry where
  action : String
  params : Fields := []
  saveAs : Option String := none
  deriving Inhabited

/-- What a discovery makes of its responses: one item, or one per element of a collection. -/
structure EmitEntry where
  itemsFor : Option String := none
  bindAs : Option String := none
  item : Fields := []
  deriving Inhabited

structure DiscoveryEntry where
  id : String
  calls : List CallEntry := []
  forEach : Option String := none
  dependsOn : List String := []
  emit : Option EmitEntry := none
  onError : Option FailurePolicy := none
  idField : Option String := none
  deriving Inhabited

structure ConditionEntry where
  path : String
  operator : String
  expected : Json := .null
  deriving Inhabited

structure CheckEntry where
  checkId : String
  title : String := ""
  severity : Severity := .medium
  forEach : String
  logic : Logic := .every
  conditions : List ConditionEntry := []
  deriving Inhabited

structure Document where
  provider : String
  service : String
  coverage : Coverage := .regional
  version : Option String := none
  discovery : List DiscoveryEntry := []
  checks : List CheckEntry := []
  deriving Inhabited

/-! Documents as JSON, every field present. -/

namespace Json

def ofOption : Option String → Json
  | some s => .string s
  | none => .null

def ofStrings (ss : List String) : Json := .array (ss.map .string)

end Json

def CallEntry.toJson (c : CallEntry) : Json :=
  .object [("action", .string c.action), ("params", .object c.params),
    ("save_as", Json.ofOption c.saveAs)]

def EmitEntry.toJson (e : EmitEntry) : Json :=
  .object [("items_for", Json.ofOption e.itemsFor), ("as", Json.ofOption e.bindAs),
    ("item", .object e.item)]

def DiscoveryEntry.toJson (d : DiscoveryEntry) : Json :=
  .object [("id", .string d.id), ("calls", .array (d.calls.map CallEntry.toJson)),
    ("for_each", Json.ofOption d.forEach), ("depends_on", Json.ofStrings d.dependsOn),
    ("emit", match d.emit with
      | some e => e.toJson
      | none => .null),
    ("on_error", Json.ofOption (d.onError.map FailurePolicy.name)),
    ("id_field", Json.ofOption d.idField)]

def ConditionEntry.toJson (c : ConditionEntry) : Json :=
  .object [("path", .string c.path), ("operator", .string c.operator), ("expected", c.expected)]

def CheckEntry.toJson (c : CheckEntry) : Json :=
  .object [("check_id", .string c.checkId), ("title", .string c.title),
    ("severity", .string c.severity.name), ("for_each", .string c.forEach),
    ("logic", .string c.logic.name), ("conditions", .array (c.conditions.map ConditionEntry.toJson))]

def Document.toJson (d : Document) : Json :=
  .object [("provider", .string d.provider), ("service", .string d.service),
    ("scope", .string d.coverage.name), ("version", Json.ofOption d.version),
    ("discovery", .array (d.discovery.map DiscoveryEntry.toJson)),
    ("checks", .array (d.checks.map CheckEntry.toJson))]

end CloudAudit
