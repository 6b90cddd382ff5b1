import CloudAudit.Json.Print

/-!
What a discovery found: items with their resource ids, failed iterations, and why it did not run to
its end. Results of one unit are kept in ascending order of discovery ids.
-/

namespace CloudAudit

/-- A discovered resource. -/
abbrev Item := Fields

inductive DiscoveryStatus where
  | pending
  | running
  | emitted
  | failed
  | skipped
  deriving DecidableEq, Repr, Inhabited

namespace DiscoveryStatus

def name : DiscoveryStatus → String
  | pending => "pending"
  | running => "running"
  | emitted => "emitted"
  | failed => "failed"
  | skipped => "skipped"

def all : List DiscoveryStatus := [pending, running, emitted, failed, skipped]

end DiscoveryStatus

/-- Why a discovery failed or was skipped. -/
inductive Reason where
  /-- The discovery iterated over emitted nothing. -/
  | noParentItems (parent : String)
  /-- The discovery iterated over has no result to iterate over. -/
  | parentUnavailable (parent : String)
  /-- A discovery waited on failed, directly or further up. -/
  | upstreamFailed (discovery : String)
  | iterationFailed (message : String)
  deriving DecidableEq, Repr

namespace Reason

def message : Reason → String
  | noParentItems parent => "parent discovery '" ++ parent ++ "' produced no items"
  | parentUnavailable parent => "parent discovery '" ++ parent ++ "' is unavailable"
  | upstreamFailed discovery => "upstream discovery '" ++ discovery ++ "' failed"
  | iterationFailed message => message

def toJson : Reason → Json
  | noParentItems parent =>
    .object [("kind", .string "no_parent_items"), ("parent", .string parent)]
  | parentUnavailable parent =>
    .object [("kind", .string "parent_unavailable"), ("parent", .string parent)]
  | upstreamFailed discovery =>
    .object [("kind", .string "upstream_failed"), ("discovery", .string discovery)]
  | iterationFailed message =>
    .object [("kind", .string "iteration_failed"), ("message", .string message)]

end Reason

/-- A failed iteration; a root discovery has no parent item. -/
structure IterationFailure where
  parentResourceId : Option String
  error : String
  deriving DecidableEq, Repr

def IterationFailure.toJson (f : IterationFailure) : Json :=
  .object [("parent_resource_id", match f.parentResourceId with
      | some id => .string id
      | none => .null),
    ("error", .string f.error)]

structure DiscoveryResult where
  discoveryId : String
  status : DiscoveryStatus := .pending
  items : List Item := []
  /-- Resource id of each item, in the same order. -/
  resourceIds : List String := []
  failures : List IterationFailure := []
  reason : Option Reason := none
  deriving Inhabited

/-- Text of a value that can serve as an id: a text that is not empty, or a number. -/
def Json.idText? : Json → Option String
  | .string s => if s = "" then none else some s
  | .number n => some n.render
  | _ => none

namespace Item

/-- Fields that may name a resource, the first one first. -/
def idFields : List String := ["resource_id", "selfLink", "id", "name"]

def fieldId? (item : Item) (field : String) : Option String :=
  (Fields.get? item field).bind Json.idText?

/--
Resource id of the item at a position: from the declared field, else from the usual ones, else
from the discovery and the position.
-/
def resourceId (item : Item) (idField : Option String) (discovery : String) (index : Nat) : String :=
  match idField.bind (fieldId? item) with
  | some id => id
  | none => match idFields.findSome? (fieldId? item) with
    | some id => id
    | none => discovery ++ "[" ++ toString index ++ "]"

end Item

namespace DiscoveryResult

/-- A discovery that did not run. -/
def skip (id : String) (reason : Reason) : DiscoveryResult :=
  { discoveryId := id, status := .skipped, reason := some reason }

/-- A discovery lost with its worker. -/
def lost (id message : String) : DiscoveryResult :=
  { discoveryId := id, status := .failed, reason := some (.iterationFailed message) }

/-- Appends an item with its id. -/
def push (r : DiscoveryResult) (idField : Option String) (item : Item) : DiscoveryResult :=
  { r with
    items := r.items ++ [item]
    resourceIds := r.resourceIds ++ [item.resourceId idField r.discoveryId r.items.length] }

/-- Items with their ids. -/
def pairs (r : DiscoveryResult) : List (String × Item) := r.resourceIds.zip r.items

def isEmitted (r : DiscoveryResult) : Bool := r.status = .emitted

/-- Skipped because there was nothing to iterate over. -/
def isEmptyParentSkip (r : DiscoveryResult) : Bool :=
  r.status = .skipped && match r.reason with
    | some (.noParentItems _) => true
    | _ => false

def toJson (r : DiscoveryResult) : Json :=
  .object ([("discovery_id", .string r.discoveryId), ("status", .string r.status.name),
      ("items", .array (r.items.map .object)), ("resource_ids", .array (r.resourceIds.map .string)),
      ("failures", .array (r.failures.map IterationFailure.toJson))] ++
    match r.reason with
    | some reason => [("reason", reason.toJson)]
    | none => [])

end DiscoveryResult

/-- Results of one unit by discovery id, in ascending order of ids. -/
abbrev Cache := List (String × DiscoveryResult)

namespace Cache

def get? : Cache → String → Option DiscoveryResult
  | [], _ => none
  | (k, r) :: rest, id => if k = id then some r else get? rest id

/-- Puts a result at its place in the order, or replaces the one there. -/
def insert : Cache → String → DiscoveryResult → Cache
  | [], id, r => [(id, r)]
  | (k, old) :: rest, id, r =>
    if k = id then (id, r) :: rest
    else if id < k then (id, r) :: (k, old) :: rest
    else (k, old) :: insert rest id r

def ids (c : Cache) : List String := c.map (·.1)

end Cache

end CloudAudit
