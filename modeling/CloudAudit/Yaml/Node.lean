import CloudAudit.Yaml.Token

/-!
YAML documents as trees. An alias names an anchor; what it stands for is looked up in the table of
the document.
-/

namespace CloudAudit.Yaml

inductive Node where
  | scalar (tag : Option String) (text : String) (plain : Bool)
  | sequence (tag : Option String) (items : List Node)
  | mapping (tag : Option String) (pairs : List (Node × Node))
  | alias (anchor : Nat)
  deriving Inhabited

namespace Node

/-- A node nobody wrote. -/
def empty : Node := .scalar none "" true

mutual

/-- Marks of a node in reading order: one for a scalar or an alias, two around a collection. -/
def size : Node → Nat
  | .scalar .. => 1
  | .alias _ => 1
  | .sequence _ items => sizeItems items + 2
  | .mapping _ pairs => sizePairs pairs + 2

def sizeItems : List Node → Nat
  | [] => 0
  | n :: rest => size n + sizeItems rest

def sizePairs : List (Node × Node) → Nat
  | [] => 0
  | (k, v) :: rest => size k + size v + sizePairs rest

end

end Node

/-- A node under an anchor; of two under one number, the one that started later counts. -/
structure Anchored where
  anchor : Nat
  start : Nat
  node : Node

/-- One document: its node and the anchored nodes in it. -/
structure Tree where
  root : Node
  anchored : List Anchored

namespace Tree

/-- The node of an anchor number. -/
def node? (t : Tree) (anchor : Nat) : Option Node :=
  let found := t.anchored.filter (·.anchor = anchor)
  (found.foldl (fun best a => match best with
    | none => some a
    | some b => if b.start ≤ a.start then some a else some b) (none : Option Anchored)).map (·.node)

end Tree

/-- Tokens not yet read and what was learnt from those before. -/
structure TreeState where
  tokens : List Token
  handles : List (List Char × List Char)
  /-- Anchor names with their numbers. -/
  names : List (String × Nat) := []
  anchored : List Anchored := []

namespace TreeState

/-- A step that may fail on malformed YAML. -/
abbrev Build := StateT TreeState Option

def peek : Build (Option Token) := do return (← get).tokens.head?

def advance : Build Unit := modify fun s => { s with tokens := s.tokens.drop 1 }

def defect {α : Type} : Build α := failure

/-- Number of an anchor name: how many names there are, so a repeated name may share a number. -/
def declare (name : String) : Build Nat := do
  let s ← get
  let number := s.names.length
  let others := s.names.filter (·.1 ≠ name)
  set { s with names := (name, number) :: others }
  return number

/-- An anchor and a tag before a node, in either order. -/
def properties : Build (Option String × Option TagText) := do
  let takeAnchor : Build (Option String) := do
    match ← peek with
    | some (.anchor name) => advance; return some name
    | _ => return none
  let takeTag : Build (Option TagText) := do
    match ← peek with
    | some (.tag t) => advance; return some t
    | _ => return none
  match ← takeAnchor with
  | some name => return (some name, ← takeTag)
  | none =>
    let tag ← takeTag
    return (← takeAnchor, tag)

def expand (tag : Option TagText) : Build (Option String) := do
  match tag with
  | none => return none
  | some t =>
    match t.expand? (← get).handles with
    | some text => return some text
    | none => defect

/-- Whether a value is missing before this token. -/
def endsBlockValue : Option Token → Bool
  | some .key | some .value | some .blockEnd => true
  | _ => false

def endsFlowKey : Option Token → Bool
  | some .value | some .flowEntry | some .flowMappingEnd => true
  | _ => false

def endsFlowValue : Option Token → Bool
  | some .flowEntry | some .flowMappingEnd => true
  | _ => false

mutual

/--
A node with its properties. `block` admits block collections, `indentless` a sequence that is not
indented. The fuel bounds the calls; three per token suffice.
-/
def node : Nat → Bool → Bool → Build Node
  | 0, _, _ => defect
  | fuel + 1, block, indentless => do
    match ← peek with
    | some (.alias name) =>
      match (← get).names.lookup name with
      | some number => advance; return .alias number
      | none => defect
    | _ =>
      let start := (← get).tokens.length
      let (anchor, written) ← properties
      let tag ← expand written
      let number ← match anchor with
        | some name => some <$> declare name
        | none => pure none
      let n ← content fuel block indentless (anchor.isSome || written.isSome) tag
      match number with
      | none => return n
      | some number =>
        modify fun s => { s with anchored := ⟨number, start, n⟩ :: s.anchored }
        return n

def content : Nat → Bool → Bool → Bool → Option String → Build Node
  | 0, _, _, _, _ => defect
  | fuel + 1, block, indentless, marked, tag => do
    match ← peek with
    | some (.scalar text plain) =>
      advance
      return .scalar (if tag = some "!" then none else tag) text plain
    | some .flowSequenceStart => advance; return .sequence tag (← flowItems fuel true)
    | some .flowMappingStart => advance; return .mapping tag (← flowPairs fuel true)
    | some .blockEntry =>
      if indentless then return .sequence tag (← indentlessItems fuel)
      else if marked then return .scalar tag "" true
      else defect
    | some .blockSequenceStart =>
      if block then do advance; return .sequence tag (← blockItems fuel)
      else if marked then return .scalar tag "" true
      else defect
    | some .blockMappingStart =>
      if block then do advance; return .mapping tag (← blockPairs fuel)
      else if marked then return .scalar tag "" true
      else defect
    | _ => if marked then return .scalar tag "" true else defect

def blockItems : Nat → Build (List Node)
  | 0 => defect
  | fuel + 1 => do
    match ← peek with
    | some .blockEntry =>
      advance
      let n ← match ← peek with
        | some .blockEntry | some .blockEnd => pure Node.empty
        | _ => node fuel true false
      return n :: (← blockItems fuel)
    | some .blockEnd => advance; return []
    | _ => defect

def indentlessItems : Nat → Build (List Node)
  | 0 => defect
  | fuel + 1 => do
    match ← peek with
    | some .blockEntry =>
      advance
      let n ← match ← peek with
        | some .blockEntry | some .key | some .value | some .blockEnd => pure Node.empty
        | _ => node fuel true false
      return n :: (← indentlessItems fuel)
    | _ => return []

def blockPairs : Nat → Build (List (Node × Node))
  | 0 => defect
  | fuel + 1 => do
    match ← peek with
    | some .key =>
      advance
      let k ← if endsBlockValue (← peek) then pure Node.empty else node fuel true true
      let v ← blockValue fuel
      return (k, v) :: (← blockPairs fuel)
    | some .blockEnd => advance; return []
    | _ => defect

def blockValue : Nat → Build Node
  | 0 => defect
  | fuel + 1 => do
    match ← peek with
    | some .value =>
      advance
      if endsBlockValue (← peek) then return Node.empty else node fuel true true
    | _ => return Node.empty

def flowItems : Nat → Bool → Build (List Node)
  | 0, _ => defect
  | fuel + 1, first => do
    if (← peek) matches some .flowSequenceEnd then advance; return []
    if !first then
      match ← peek with
      | some .flowEntry => advance
      | _ => defect
    match ← peek with
    | some .flowSequenceEnd => advance; return []
    | some .key =>
      advance
      let k ← match ← peek with
        | some .value | some .flowEntry | some .flowSequenceEnd => advance; pure Node.empty
        | _ => node fuel false false
      let v ← flowItemValue fuel
      return .mapping none [(k, v)] :: (← flowItems fuel false)
    | _ =>
      let n ← node fuel false false
      return n :: (← flowItems fuel false)

def flowItemValue : Nat → Build Node
  | 0 => defect
  | fuel + 1 => do
    match ← peek with
    | some .value =>
      advance
      match ← peek with
      | some .flowEntry | some .flowSequenceEnd => return Node.empty
      | _ => node fuel false false
    | _ => return Node.empty

def flowPairs : Nat → Bool → Build (List (Node × Node))
  | 0, _ => defect
  | fuel + 1, first => do
    if (← peek) matches some .flowMappingEnd then advance; return []
    if !first then
      match ← peek with
      | some .flowEntry => advance
      | _ => defect
    match ← peek with
    | some .flowMappingEnd => advance; return []
    | some .key =>
      advance
      let k ← if endsFlowKey (← peek) then pure Node.empty else node fuel false false
      let v ← flowValue fuel
      return (k, v) :: (← flowPairs fuel false)
    | _ =>
      let k ← node fuel false false
      return (k, Node.empty) :: (← flowPairs fuel false)

def flowValue : Nat → Build Node
  | 0 => defect
  | fuel + 1 => do
    match ← peek with
    | some .value =>
      advance
      if endsFlowValue (← peek) then return Node.empty else node fuel false false
    | _ => return Node.empty

end

/-- Directives before a document: one version at most, 1.1 or 1.2, and each handle once. -/
def directives : List Token → Bool → List (List Char × List Char) →
    Option (List (List Char × List Char) × List Token)
  | .directive (.version major minor) :: rest, versioned, handles =>
    if versioned || major ≠ 1 || (minor ≠ 1 && minor ≠ 2) then none else directives rest true handles
  | .directive (.handle name start) :: rest, versioned, handles =>
    if (handles.lookup name).isSome then none
    else directives rest versioned (handles ++ [(name, start)])
  | rest, _, handles => some (handles, rest)

/-- Whether a document has no content before this token. -/
def endsDocument : List Token → Bool
  | [] | .directive _ :: _ | .documentStart :: _ | .documentEnd :: _ => true
  | _ => false

end TreeState

open TreeState in
/-- The one document of a list of tokens; none for an empty stream or a second document. -/
def Tree.ofTokens? (tokens : List Token) : Option Tree := do
  let fuel := 3 * tokens.length + 8
  let (explicit, handles, body) ← match tokens with
    | [] => none
    | .directive _ :: _ | .documentStart :: _ =>
      match directives tokens false [] with
      | some (handles, .documentStart :: body) => some (true, handles, body)
      | _ => none
    | _ => some (false, [], tokens)
  let start : TreeState := { tokens := body, handles := handles ++ TagText.standardHandles }
  let (root, s) ← if explicit && endsDocument body then some (Node.empty, start)
    else (node fuel true false).run start
  if (s.tokens.dropWhile fun t => t matches .documentEnd).isEmpty then
    some ⟨root, s.anchored.map fun a => { a with start := tokens.length - a.start }⟩
  else none

/-- The one document of a YAML text. -/
def Tree.ofText? (text : String) : Option Tree := (Token.ofText? text).bind Tree.ofTokens?

end CloudAudit.Yaml
