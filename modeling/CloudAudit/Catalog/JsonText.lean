import CloudAudit.Catalog.Reader
import CloudAudit.Json.Syntax

/-!
Catalog documents in JSON: as values, and as text. A text may repeat an unknown field, or hold
anything at all in one; a repeated known field is a defect.
-/

namespace CloudAudit

/-- The one field of an object, when its value is null. -/
def Json.unitCase? : Json → Option String
  | .string s => some s
  | .object [(name, .null)] => some name
  | _ => none

/-- Documents read from JSON values. -/
def Json.reader : Reader Option Json where
  reject := failure
  text := Json.asString?
  optional v := some (if v.isNull then none else some v)
  items := Json.asArray?
  record
    | .object fields => some (.named fields)
    | .array items => some (.listed items)
    | _ => none
  fields := Json.asObject?
  value := some
  case := Json.unitCase?

/-- A piece of JSON text and how many more containers may open in it. -/
structure NestedSyntax where
  depth : Nat
  tree : Json.Syntax

namespace NestedSyntax

/-- Pieces inside a container. -/
def inside {α : Type} (v : NestedSyntax) (pieces : (Json.Syntax → NestedSyntax) → Option α) :
    Option α :=
  if v.depth = 0 then none else pieces fun tree => ⟨v.depth - 1, tree⟩

/-- Fields with their keys read. -/
def namedFields (wrap : Json.Syntax → NestedSyntax) :
    List (Option String × Json.Syntax) → Option (List (String × NestedSyntax))
  | [] => some []
  | (k, v) :: rest => do
    let k ← k
    let rest ← namedFields wrap rest
    pure ((k, wrap v) :: rest)

def toJson? (v : NestedSyntax) : Option Json := v.tree.toJson? v.depth

/-- Documents read from JSON text. -/
def reader : Reader Option NestedSyntax where
  reject := failure
  text v := match v.tree with
    | .string s => s
    | _ => none
  optional v := match v.tree with
    | .null => some none
    | _ => some (some v)
  items v := match v.tree with
    | .array items => v.inside fun wrap => some (items.map wrap)
    | _ => none
  record v := match v.tree with
    | .object fields => v.inside fun wrap => (namedFields wrap fields).map .named
    | .array items => v.inside fun wrap => some (.listed (items.map wrap))
    | _ => none
  fields v := match v.tree with
    | .object _ => v.toJson?.bind Json.asObject?
    | _ => none
  value := toJson?
  case v := match v.tree with
    | .string s => s
    | .object [(name, .null)] => v.inside fun _ => name
    | _ => none

end NestedSyntax

namespace Document

/-- Reads a document from a JSON value. -/
def ofJson? (v : Json) : Option Document := Json.reader.document v

/-- Reads a document from JSON text. -/
def ofJsonText? (text : String) : Option Document :=
  (Json.Syntax.ofText? text).bind fun tree => NestedSyntax.reader.document ⟨Json.depthLimit, tree⟩

end Document

end CloudAudit
