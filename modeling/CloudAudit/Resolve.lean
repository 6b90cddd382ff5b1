import CloudAudit.Param
import CloudAudit.Scope

/-!
Resolving paths, templates and parameter trees in a scope.
-/

namespace CloudAudit

/-- A path that leads nowhere. -/
structure PathNotFound where
  path : String
  deriving DecidableEq, Repr

def PathNotFound.message (e : PathNotFound) : String :=
  "Path '" ++ e.path ++ "' not found in scope"

namespace Binding

/-- The value under a key of a mapping. -/
def key? : Binding → String → Option Binding
  | .value (.object fields), key => (Fields.get? fields key).map .value
  | .item fields, key => (Fields.get? fields key).map .value
  | .discoveries c, key => (c.get? key).map fun r => .items r.items
  | _, _ => none

/-- The element at a position of a list; in a mapping the digits are a key. -/
def index? : Binding → Nat → Option Binding
  | .value (.array vs), n => vs[n]?.map .value
  | .items is, n => is[n]?.map .item
  | .value (.object fields), n => key? (.value (.object fields)) (toString n)
  | .item fields, n => key? (.item fields) (toString n)
  | .discoveries c, n => key? (.discoveries c) (toString n)
  | _, _ => none

/-- Elements of a list. -/
def elements? : Binding → Option (List Binding)
  | .value (.array vs) => some (vs.map .value)
  | .items is => some (is.map .item)
  | _ => none

def itemsJson (is : List Item) : Json := .array (is.map .object)

/-- The value a binding stands for. -/
def toJson : Binding → Json
  | .value v => v
  | .item fields => .object fields
  | .items is => itemsJson is
  | .discoveries c => .object (c.map fun (id, r) => (id, itemsJson r.items))

/-- What one element adds to a flattened list: a list adds its own elements. -/
def splice : Option Json → List Json
  | some (.array vs) => vs
  | some v => [v]
  | none => []

/-- Follows steps. A flattening step drops the elements where the rest leads nowhere. -/
def walk : Binding → List Step → Option Json
  | b, [] => some b.toJson
  | b, .key name :: rest => match b.key? name with
    | some next => walk next rest
    | none => none
  | b, .index n :: rest => match b.index? n with
    | some next => walk next rest
    | none => none
  | b, .flatten :: rest => match b.elements? with
    | some es => some (.array (es.flatMap fun e => splice (walk e rest)))
    | none => none

end Binding

namespace Scope

/-- The value a path leads to; its first step names a binding. -/
def resolvePath (s : Scope) (p : Path) : Except PathNotFound Json :=
  let found := match p.steps with
    | .key root :: rest => (s.lookup root).bind fun b => b.walk rest
    | _ => none
  match found with
  | some v => .ok v
  | none => .error ⟨p.text⟩

def resolveExpr (s : Scope) : Expr → Except PathNotFound Json
  | .literal v => .ok v
  | .path p => s.resolvePath p

/-- A value inside a longer text: null is empty, text is itself, all else is JSON. -/
def renderInline : Json → String
  | .null => ""
  | .string t => t
  | v => v.compact

def resolveSegments (s : Scope) : List Segment → Except PathNotFound String
  | [] => .ok ""
  | .text t :: rest => (resolveSegments s rest).map (t ++ ·)
  | .expr e :: rest => do
    let v ← s.resolveExpr e
    let more ← resolveSegments s rest
    pure (renderInline v ++ more)

/-- A single expression keeps its type; any other template gives a text. -/
def resolve (s : Scope) (t : Template) : Except PathNotFound Json :=
  match t.single? with
  | some e => s.resolveExpr e
  | none => (s.resolveSegments t.segments).map .string

mutual

/-- A parameter tree with its templates resolved. -/
def resolveParam (s : Scope) : Param → Except PathNotFound Json
  | .template t => s.resolve t
  | .literal v => .ok v
  | .list items => (resolveItems s items).map .array
  | .map fields => (resolveEntries s fields).map .object

def resolveItems (s : Scope) : List Param → Except PathNotFound (List Json)
  | [] => .ok []
  | p :: rest => do
    let v ← resolveParam s p
    let vs ← resolveItems s rest
    pure (v :: vs)

def resolveEntries (s : Scope) : List (String × Param) → Except PathNotFound Fields
  | [] => .ok []
  | (k, p) :: rest => do
    let v ← resolveParam s p
    let fields ← resolveEntries s rest
    pure ((k, v) :: fields)

end

/-- Parameters by name, or the first one that does not resolve. -/
def resolveParams (s : Scope) : List (String × Param) → Except (String × PathNotFound) Fields
  | [] => .ok []
  | (name, p) :: rest => do
    let v ← (s.resolveParam p).mapError fun e => (name, e)
    let fields ← resolveParams s rest
    pure ((name, v) :: fields)

/-- Fields by name; one that does not resolve is null. -/
def resolveFields (s : Scope) (fields : List (String × Param)) : Item :=
  fields.map fun (name, p) => (name, match s.resolveParam p with
    | .ok v => v
    | .error _ => .null)

end Scope

/-- The value a path leads to inside an item. -/
def Item.resolve? (item : Item) (p : Path) : Option Json := (Binding.item item).walk p.steps

end CloudAudit
