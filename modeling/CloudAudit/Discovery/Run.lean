import CloudAudit.Catalog.Basic
import CloudAudit.Dispatch
import CloudAudit.Resolve

/-!
Running one discovery: once for a root, else once per item of the discovery it iterates over. Each
iteration makes its calls in order and projects the responses into items.
-/

namespace CloudAudit

/-- Why an iteration failed. -/
inductive IterationError where
  | unresolved (action param : String) (cause : PathNotFound)
  | vendor (cause : VendorError)
  deriving DecidableEq, Repr

def IterationError.message : IterationError → String
  | unresolved action param cause =>
    "Cannot resolve parameter '" ++ param ++ "' of action '" ++ action ++ "': " ++ cause.message
  | vendor cause => cause.message

/-- What every call of a unit shares. -/
structure UnitContext where
  place : Place
  retry : RetryConfig
  deriving Inhabited

namespace Json

/-- Elements of a list; null has none and any other value is its own only element. -/
def elements : Json → List Json
  | .null => []
  | .array vs => vs
  | v => [v]

/-- An object as it is, any other value under `value`. -/
def toItem : Json → Item
  | .object fields => fields
  | v => [("value", v)]

/-- Items of a response nobody projects: those under `items`, else the elements. -/
def normalize (response : Json) : List Item :=
  match response with
  | .object fields => match Fields.get? fields "items" with
    | some (.array vs) => vs.map toItem
    | _ => [fields]
  | v => v.elements.map toItem

end Json

/-- An iteration under way: the scope so far and the latest response. -/
structure Iteration where
  scope : Scope
  last : Json := .null

/-- One pass of a discovery: the parent item and its id, or neither for a root. -/
abbrev Turn := Option (String × Item)

namespace Discovery

/-- Makes the calls in order, each response bound for the calls after it. -/
def runCalls (u : UnitContext) (parent : Option String) :
    List Call → Iteration → Program (Except IterationError Iteration)
  | [], it => .done (.ok it)
  | c :: rest, it =>
    match it.scope.resolveParams c.params with
    | .error (param, e) => .done (.error (.unresolved c.action.render param e))
    | .ok params => do
      match ← c.action.dispatch u.retry (u.place.request c.action params parent) with
      | .error e => .done (.error (.vendor e))
      | .ok response => runCalls u parent rest ⟨it.scope.bindValue c.saveAs response, response⟩

/-- The item made of one element of a collection. -/
def elementItem (scope : Scope) (bindAs : String) (fields : List (String × Param)) (v : Json) :
    Item :=
  if fields.isEmpty then v.toItem else (scope.enter.bindValue bindAs v).resolveFields fields

/-- Items of an iteration whose calls succeeded. -/
def project (emit : Option Emit) (it : Iteration) : List Item :=
  match emit with
  | none => it.last.normalize
  | some (.single fields) => [it.scope.resolveFields fields]
  | some (.each collection bindAs fields) =>
    let found := match it.scope.resolve collection with
      | .ok v => v
      | .error _ => .null
    found.elements.map (elementItem it.scope bindAs fields)

/-- Scope an iteration starts with. -/
def turnScope (unit : Scope) (turn : Turn) : Scope :=
  match turn with
  | none => unit.enter
  | some (_, item) => unit.enter.bind Scope.itemName (.item item)

def runTurn (u : UnitContext) (d : Discovery) (unit : Scope) (turn : Turn) :
    Program (Except IterationError (List Item)) := do
  match ← runCalls u (turn.map (·.1)) d.calls ⟨turnScope unit turn, .null⟩ with
  | .error e => .done (.error e)
  | .ok it => .done (.ok (project d.emit it))

/-- Iterations in order. A failed one is recorded or ends the discovery, as its policy says. -/
def runTurns (u : UnitContext) (d : Discovery) (unit : Scope) :
    List Turn → DiscoveryResult → Program DiscoveryResult
  | [], r => .done { r with status := .emitted }
  | turn :: rest, r => do
    match ← runTurn u d unit turn with
    | .ok items => runTurns u d unit rest (items.foldl (fun r i => r.push d.idField i) r)
    | .error e => match d.onError with
      | .proceed =>
        runTurns u d unit rest
          { r with failures := r.failures ++ [⟨turn.map (·.1), e.message⟩] }
      | .fail =>
        .done { r with status := .failed, reason := some (.iterationFailed e.message) }

/-- Iterations of a discovery, or why it has none. -/
def turns (d : Discovery) (cache : Cache) : Except Reason (List Turn) :=
  match d.dependsOn.find? fun id => (cache.get? id).any (·.status = .failed) with
  | some id => .error (.upstreamFailed id)
  | none => match d.forEach with
    | none => .ok [none]
    | some parent => match cache.get? parent with
      | some r =>
        if r.isEmitted then
          if r.items.isEmpty then .error (.noParentItems parent) else .ok (r.pairs.map some)
        else .error (.parentUnavailable parent)
      | none => .error (.parentUnavailable parent)

/-- Scope shared by all iterations of a discovery. -/
def unitScope (u : UnitContext) (cache : Cache) : Scope :=
  (Scope.ofPlace u.place).bind Scope.discoveriesName (.discoveries cache)

/-- Runs a discovery on the results so far. -/
def run (u : UnitContext) (d : Discovery) (cache : Cache) : Program DiscoveryResult :=
  match d.turns cache with
  | .error reason => .done (.skip d.id reason)
  | .ok turns =>
    runTurns u d (unitScope u cache) turns { discoveryId := d.id, status := .running }

end Discovery

end CloudAudit
