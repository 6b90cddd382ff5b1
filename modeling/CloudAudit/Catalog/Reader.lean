import CloudAudit.Catalog.Document

/-!
Reading a catalog document from any notation that has texts, lists and records. A record may name
its fields or list them in order of declaration.
-/

namespace CloudAudit

/-- A record as written. -/
inductive RecordShape (ν : Type) where
  | named (fields : List (String × ν))
  | listed (items : List ν)

/-- How one notation is read: `ν` is a piece of it, and a failed reading fails the document. -/
structure Reader (m : Type → Type) (ν : Type) where
  /-- Fails. -/
  reject : {α : Type} → m α
  text : ν → m String
  /-- Absent for a null. -/
  optional : ν → m (Option ν)
  items : ν → m (List ν)
  record : ν → m (RecordShape ν)
  /-- Fields of a free-form map, keys in order of first appearance. -/
  fields : ν → m Fields
  value : ν → m Json
  /-- Name of one case of an enumeration. -/
  case : ν → m String

namespace Reader

variable {m : Type → Type} {ν : Type}

/-- The field of a name; a second one is a defect. -/
def only? (fields : List (String × ν)) (name : String) : Option (Option ν) :=
  match fields.filter (·.1 = name) with
  | [] => some none
  | [(_, v)] => some (some v)
  | _ => none

/-- Values of the declared fields in order, absent ones marked; a list may stop early. -/
def slots? (names : List String) : RecordShape ν → Option (List (Option ν))
  | .named fields => names.mapM (only? fields)
  | .listed items =>
    if items.length ≤ names.length then
      some (items.map some ++ List.replicate (names.length - items.length) none)
    else none

variable [Monad m]

def ofOption {α : Type} (r : Reader m ν) : Option α → m α
  | some a => pure a
  | none => r.reject

/-- Declared fields of a record. -/
def slots (r : Reader m ν) (names : List String) (v : ν) : m (List (Option ν)) := do
  let shape ← r.record v
  r.ofOption (slots? names shape)

/-- A field that must be there. -/
def required {α : Type} (r : Reader m ν) (read : ν → m α) : Option ν → m α
  | some v => read v
  | none => r.reject

/-- A field with a value for when it is left out. -/
def defaulted {α : Type} (fallback : α) (read : ν → m α) : Option ν → m α
  | some v => read v
  | none => pure fallback

/-- A field that may be left out or null. -/
def nullable {α : Type} (r : Reader m ν) (read : ν → m α) : Option ν → m (Option α)
  | none => pure none
  | some v => do
    match ← r.optional v with
    | none => pure none
    | some v => some <$> read v

/-- One case of an enumeration. -/
def oneOf {α : Type} (r : Reader m ν) (spellings : List (String × α)) (v : ν) : m α := do
  let name ← r.case v
  r.ofOption (spellings.lookup name)

def listOf {α : Type} (r : Reader m ν) (read : ν → m α) (v : ν) : m (List α) := do
  let items ← r.items v
  items.mapM read

def call (r : Reader m ν) (v : ν) : m CallEntry := do
  match ← r.slots ["action", "params", "save_as"] v with
  | [action, params, saveAs] =>
    let action ← r.required r.text action
    let params ← defaulted [] r.fields params
    let saveAs ← r.nullable r.text saveAs
    pure { action, params, saveAs }
  | _ => r.reject

def emit (r : Reader m ν) (v : ν) : m EmitEntry := do
  match ← r.slots ["items_for", "as", "item"] v with
  | [itemsFor, bindAs, item] =>
    let itemsFor ← r.nullable r.text itemsFor
    let bindAs ← r.nullable r.text bindAs
    let item ← defaulted [] r.fields item
    pure { itemsFor, bindAs, item }
  | _ => r.reject

def discovery (r : Reader m ν) (v : ν) : m DiscoveryEntry := do
  match ← r.slots ["id", "calls", "for_each", "depends_on", "emit", "on_error", "id_field"] v with
  | [id, calls, forEach, dependsOn, emit, onError, idField] =>
    let id ← r.required r.text id
    let calls ← defaulted [] (r.listOf r.call) calls
    let forEach ← r.nullable r.text forEach
    let dependsOn ← defaulted [] (r.listOf r.text) dependsOn
    let emit ← r.nullable r.emit emit
    let onError ← r.nullable (r.oneOf FailurePolicy.spellings) onError
    let idField ← r.nullable r.text idField
    pure { id, calls, forEach, dependsOn, emit, onError, idField }
  | _ => r.reject

def condition (r : Reader m ν) (v : ν) : m ConditionEntry := do
  match ← r.slots ["path", "operator", "expected"] v with
  | [path, operator, expected] =>
    let path ← r.required r.text path
    let operator ← r.required r.text operator
    let expected ← defaulted .null r.value expected
    pure { path, operator, expected }
  | _ => r.reject

def check (r : Reader m ν) (v : ν) : m CheckEntry := do
  match ← r.slots ["check_id", "title", "severity", "for_each", "logic", "conditions"] v with
  | [checkId, title, severity, forEach, logic, conditions] =>
    let checkId ← r.required r.text checkId
    let title ← defaulted "" r.text title
    let severity ← defaulted .medium (r.oneOf Severity.spellings) severity
    let forEach ← r.required r.text forEach
    let logic ← defaulted .every (r.oneOf Logic.spellings) logic
    let conditions ← defaulted [] (r.listOf r.condition) conditions
    pure { checkId, title, severity, forEach, logic, conditions }
  | _ => r.reject

/-- Reads a whole document. -/
def document (r : Reader m ν) (v : ν) : m Document := do
  match ← r.slots ["provider", "service", "scope", "version", "discovery", "checks"] v with
  | [provider, service, coverage, version, discovery, checks] =>
    let provider ← r.required r.text provider
    let service ← r.required r.text service
    let coverage ← defaulted .regional (r.oneOf Coverage.spellings) coverage
    let version ← r.nullable r.text version
    let discovery ← defaulted [] (r.listOf r.discovery) discovery
    let checks ← defaulted [] (r.listOf r.check) checks
    pure { provider, service, coverage, version, discovery, checks }
  | _ => r.reject

end Reader

end CloudAudit
