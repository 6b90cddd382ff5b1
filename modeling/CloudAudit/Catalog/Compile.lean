import CloudAudit.Catalog.Basic
import CloudAudit.Catalog.Error

/-!
Compiling a document: all that can be rejected before a vendor is asked is rejected here.
-/

namespace CloudAudit

/-- Name of a response nobody named. -/
def defaultSaveAs : String := "response"

/-- Name of the element of a collection nobody named. -/
def defaultBindAs : String := "entry"

/-- A name given by the author, or the default where it is missing or blank. -/
def nameOr (fallback : String) : Option String → String
  | none => fallback
  | some s => let t := Text.trimmed s; if t = "" then fallback else t

namespace Document

def liftTemplate {α : Type} (service location : String) :
    Except TemplateError α → Except CatalogError α :=
  Except.mapError (.template service location)

def compileCall (service id : String) (position : Nat) (c : CallEntry) :
    Except CatalogError Call := do
  let action ← (Action.parse c.action).mapError (.dispatch service id)
  let location := "params of call " ++ toString position ++ " in discovery '" ++ id ++ "'"
  let params ← liftTemplate service location (Param.compileFields c.params)
  pure { action, params, saveAs := nameOr defaultSaveAs c.saveAs }

/-- Calls in order, counted from `position`. -/
def compileCalls (service id : String) : Nat → List CallEntry → Except CatalogError (List Call)
  | _, [] => .ok []
  | position, c :: rest => do
    let c ← compileCall service id position c
    let rest ← compileCalls service id (position + 1) rest
    pure (c :: rest)

def compileEmit (service id : String) (e : EmitEntry) : Except CatalogError Emit := do
  let location := "emit of discovery '" ++ id ++ "'"
  let fields ← liftTemplate service location (Param.compileFields e.item)
  match e.itemsFor with
  | some collection =>
    let collection ← liftTemplate service location (Template.parse collection)
    pure (.each collection (nameOr defaultBindAs e.bindAs) fields)
  | none =>
    if fields.isEmpty then
      .error (.invalid service (location ++ " has neither items_for nor item fields"))
    else pure (.single fields)

/-- The stated policy, or the usual one: iterations are independent, a root is not. -/
def policy (d : DiscoveryEntry) : FailurePolicy :=
  d.onError.getD (if d.forEach.isSome then .proceed else .fail)

def compileDiscovery (service : String) (d : DiscoveryEntry) : Except CatalogError Discovery := do
  if Text.allBlank d.id then .error (.invalid service "discovery with empty id")
  if d.calls.isEmpty then
    .error (.invalid service ("discovery '" ++ d.id ++ "' declares no calls"))
  let calls ← compileCalls service d.id 0 d.calls
  let emit ← match d.emit with
    | none => pure none
    | some e => some <$> compileEmit service d.id e
  pure { id := d.id, calls, forEach := d.forEach, dependsOn := d.dependsOn, emit,
         onError := policy d, idField := d.idField }

def compileCondition (service check : String) (c : ConditionEntry) :
    Except CatalogError Condition := do
  match Operator.parse? c.operator with
  | none => .error (.unknownOperator check c.operator)
  | some operator =>
    let path ← liftTemplate service ("check '" ++ check ++ "'") (Path.parse c.path)
    pure { path, operator, expected := c.expected }

def compileCheck (service : String) (c : CheckEntry) : Except CatalogError Check := do
  if c.conditions.isEmpty then
    .error (.invalid service ("check '" ++ c.checkId ++ "' declares no conditions"))
  let conditions ← c.conditions.mapM (compileCondition service c.checkId)
  pure { checkId := c.checkId, title := if c.title = "" then c.checkId else c.title,
         severity := c.severity, forEach := c.forEach, logic := c.logic, conditions }

/-- Checks in order; ids do not repeat and each check names a discovery. -/
def compileChecks (service : String) (ids : List String) :
    List String → List CheckEntry → Except CatalogError (List Check)
  | _, [] => .ok []
  | seen, c :: rest => do
    if seen.contains c.checkId then
      .error (.invalid service ("duplicate check id '" ++ c.checkId ++ "'"))
    if !ids.contains c.forEach then
      .error (.invalid service
        ("check '" ++ c.checkId ++ "' references unknown discovery '" ++ c.forEach ++ "'"))
    let check ← compileCheck service c
    let rest ← compileChecks service ids (c.checkId :: seen) rest
    pure (check :: rest)

/-- What a discovery waits on: the discovery it iterates over, then the others. -/
def dependency (d : DiscoveryEntry) : Dependency := ⟨d.id, d.forEach.toList ++ d.dependsOn⟩

/-- Compiles a document: names first, then the plan, the discoveries and the checks. -/
def compile (d : Document) : Except CatalogError Catalog := do
  let service := Text.trimmed d.service
  let provider := Text.trimmed d.provider
  if service = "" then .error (.invalid "<unnamed>" "service name is empty")
  if provider = "" then .error (.invalid service "provider is empty")
  let plan ← (Plan.build (d.discovery.map dependency)).mapError (.plan service)
  let discoveries ← d.discovery.mapM (compileDiscovery service)
  let checks ← compileChecks service (d.discovery.map (·.id)) [] d.checks
  pure { provider, service, coverage := d.coverage, version := d.version, discoveries, checks,
         plan }

end Document

end CloudAudit
