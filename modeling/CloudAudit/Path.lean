import CloudAudit.Text.Affix
import CloudAudit.Number.Text

/-!
Dotted paths into values, such as `response.items[].name`. A segment is a name, a name followed by
`[]`, or `[]` alone; `[]` applies the rest of the path to every element of a list.
-/

namespace CloudAudit

-- Powers are core's, also where an algebra library is imported.
attribute [local instance (high)] instPowNat

/-- Why a text is no template or path. -/
inductive TemplateError where
  /-- No closing marker after the opening one at this byte. -/
  | unclosed (template : String) (position : Nat)
  | emptyExpression (template : String)
  | invalidPath (path : String) (reason : String)
  deriving DecidableEq, Repr

namespace TemplateError

def message : TemplateError → String
  | unclosed template position =>
    "Unclosed template marker at byte " ++ toString position ++ " in '" ++ template ++ "'"
  | emptyExpression template => "Empty template expression in '" ++ template ++ "'"
  | invalidPath path reason => "Invalid path '" ++ path ++ "': " ++ reason

end TemplateError

inductive Step where
  | key (name : String)
  | index (n : Nat)
  | flatten
  deriving DecidableEq, Repr

/-- A path: its trimmed text and the steps it stands for. -/
structure Path where
  text : String
  steps : List Step
  deriving DecidableEq, Repr

namespace Path

/-- Pieces between dots; there is always one. -/
def segments : List Char → List (List Char)
  | [] => [[]]
  | c :: rest =>
    if c = '.' then [] :: segments rest
    else match segments rest with
      | [] => [[c]]
      | piece :: pieces => (c :: piece) :: pieces

/-- A name has neither blanks nor brackets. -/
def isNameChar (c : Char) : Bool := !Text.isBlank c && c ≠ '[' && c ≠ ']'

/-- Greatest list index. -/
def maxIndex : Nat := 2 ^ (64 : Nat) - 1

/-- A name of digits only is an index as long as it fits; any other name is a key. -/
def nameStep (name : List Char) : Step :=
  match Number.natural? name with
  | some n => if n ≤ maxIndex then .index n else .key (String.ofList name)
  | none => .key (String.ofList name)

inductive SegmentError where
  | empty
  | invalid (segment : String)

def SegmentError.reason : SegmentError → String
  | empty => "empty path segment"
  | invalid segment => "invalid segment '" ++ segment ++ "'"

/-- Steps of one segment. -/
def segmentSteps (segment : List Char) : Except SegmentError (List Step) :=
  let (name, flat) := match Text.beforeSuffix? ['[', ']'] segment with
    | some name => (name, true)
    | none => (segment, false)
  if name = [] ∧ flat = false then .error .empty
  else if !name.all isNameChar then .error (.invalid (String.ofList segment))
  else
    let tail := if flat then [Step.flatten] else []
    .ok (if name = [] then tail else nameStep name :: tail)

/-- Steps of all segments, or the fault of the first bad one. -/
def stepsOf : List (List Char) → Except SegmentError (List Step)
  | [] => .ok []
  | segment :: rest => do
    let steps ← segmentSteps segment
    let more ← stepsOf rest
    pure (steps ++ more)

/-- Reads a path; blanks around it are ignored, and an error quotes the text as given. -/
def parse (text : String) : Except TemplateError Path :=
  let trimmed := Text.trim text.toList
  if trimmed = [] then .error (.invalidPath text "path is empty")
  else match stepsOf (segments trimmed) with
    | .ok steps => .ok ⟨String.ofList trimmed, steps⟩
    | .error e => .error (.invalidPath text e.reason)

/-- Name of the binding a path starts at. -/
def root? (p : Path) : Option String :=
  match p.steps with
  | .key name :: _ => some name
  | _ => none

def hasFlatten (p : Path) : Bool := p.steps.any (· = .flatten)

/-- Text of one named step. -/
def nameText : Step → String
  | .key name => name
  | .index n => toString n
  | .flatten => "[]"

/-- Canonical text of steps: a `[]` is attached to the name before it. -/
def renderSteps : List Step → String
  | [] => ""
  | [s] => nameText s
  | .flatten :: rest => "[]." ++ renderSteps rest
  | s :: .flatten :: [] => nameText s ++ "[]"
  | s :: .flatten :: rest => nameText s ++ "[]." ++ renderSteps rest
  | s :: rest => nameText s ++ "." ++ renderSteps rest

end Path

end CloudAudit
