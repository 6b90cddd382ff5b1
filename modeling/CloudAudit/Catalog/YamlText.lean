import CloudAudit.Catalog.Reader
import CloudAudit.Yaml.Value

/-!
Catalog documents in YAML. Any scalar serves as a text, by its source; a value left empty serves as
an empty list or record; a record names its fields. Aliases are followed, but not without end.
-/

namespace CloudAudit

open Yaml

/-- A node and how many more collections may open in it. -/
structure NestedNode where
  depth : Nat
  node : Node

namespace NestedNode

/-- How many aliases may still be followed. -/
abbrev Follow := StateT Nat Option

/-- How deeply collections may nest. -/
def depthLimit : Nat := 128

/-- The node an alias stands for. -/
def follow (t : Tree) (v : NestedNode) : Follow Node := do
  match v.node with
  | .alias anchor =>
    let left ← get
    if left = 0 then failure
    set (left - 1)
    match t.node? anchor with
    | some n => pure n
    | none => failure
  | n => pure n

def isUnwritten : Node → Bool
  | .scalar _ "" true => true
  | _ => false

/-- Nodes inside a collection. -/
def inside {α : Type} (v : NestedNode) (pieces : (Node → NestedNode) → Follow α) : Follow α :=
  if v.depth = 0 then failure else pieces fun node => ⟨v.depth - 1, node⟩

def text (t : Tree) (v : NestedNode) : Follow String := do
  match ← follow t v with
  | .scalar _ s _ => pure s
  | _ => failure

/-- A local tag may stand on no value. -/
def hasLocalTag : Option String → Bool
  | some tag => tag.toList.head? = some '!'
  | none => false

mutual

/-- The value of a node at most `depth` collections deep. -/
def value (t : Tree) : Nat → Node → Follow Json
  | 0, n => do
    match ← follow t ⟨0, n⟩ with
    | .scalar tag s plain => match ScalarValue.json? tag s plain with
      | some v => pure v
      | none => failure
    | _ => failure
  | depth + 1, n => do
    match ← follow t ⟨0, n⟩ with
    | .scalar tag s plain => match ScalarValue.json? tag s plain with
      | some v => pure v
      | none => failure
    | .sequence tag items =>
      if hasLocalTag tag then failure
      .array <$> values t depth items
    | .mapping tag pairs =>
      if hasLocalTag tag then failure
      let fields ← entries t depth pairs
      pure (.object (Fields.ofPairs fields))
    | .alias _ => failure

def values (t : Tree) (depth : Nat) : List Node → Follow (List Json)
  | [] => pure []
  | n :: rest => do
    let v ← value t depth n
    let vs ← values t depth rest
    pure (v :: vs)

def entries (t : Tree) (depth : Nat) : List (Node × Node) → Follow (List (String × Json))
  | [] => pure []
  | (k, n) :: rest => do
    let k ← text t ⟨0, k⟩
    let v ← value t depth n
    let fields ← entries t depth rest
    pure ((k, v) :: fields)

end

def namedFields (t : Tree) (wrap : Node → NestedNode) :
    List (Node × Node) → Follow (List (String × NestedNode))
  | [] => pure []
  | (k, n) :: rest => do
    let k ← text t ⟨0, k⟩
    let fields ← namedFields t wrap rest
    pure ((k, wrap n) :: fields)

/-- Whether an optional field holds a value; a plain null does not. -/
def holdsValue? (tag : Option String) (s : String) (plain : Bool) : Option Bool :=
  if !plain then some true
  else match tag with
    | some tag =>
      if tag = ScalarValue.nullTag then
        (if ScalarValue.isNull s then some false else none)
      else some true
    | none => some (s ≠ "" && !ScalarValue.isNull s)

/-- Documents read from the nodes of a tree. -/
def reader (t : Tree) : Reader Follow NestedNode where
  reject := failure
  text := text t
  optional v := do
    let n ← follow t v
    match n with
    | .scalar tag s plain => match holdsValue? tag s plain with
      | some true => pure (some { v with node := n })
      | some false => pure none
      | none => failure
    | _ => pure (some { v with node := n })
  items v := do
    match ← follow t v with
    | .sequence _ items => v.inside fun wrap => pure (items.map wrap)
    | n => if isUnwritten n then pure [] else failure
  record v := do
    match ← follow t v with
    | .mapping _ pairs => v.inside fun wrap => .named <$> namedFields t wrap pairs
    | n => if isUnwritten n then pure (.named []) else failure
  fields v := do
    match ← follow t v with
    | .mapping _ pairs =>
      v.inside fun _ => do
        let fields ← entries t (v.depth - 1) pairs
        pure (Fields.ofPairs fields)
    | n => if isUnwritten n then pure [] else failure
  value v := value t v.depth v.node
  case v := do
    match ← follow t v with
    | .scalar tag s plain =>
      match tag with
      | some tag =>
        if tag.toList.head? = some '!' then
          if plain && (s = "" || ScalarValue.isNull s) then
            pure (if tag = "!" then "!" else String.ofList (tag.toList.drop 1))
          else failure
        else pure s
      | none => pure s
    | _ => failure

end NestedNode

/-- Reads a document from YAML text; a hundred aliases may be followed per mark of the tree. -/
def Document.ofYamlText? (text : String) : Option Document := do
  let tree ← Tree.ofText? text
  let budget := 100 * tree.root.size
  let (d, _) ← ((NestedNode.reader tree).document ⟨NestedNode.depthLimit, tree.root⟩).run budget
  pure d

end CloudAudit
