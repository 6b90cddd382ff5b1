import CloudAudit.Discovery.Result

/-!
Scopes: what a template sees. A scope is a stack of frames; a name means its latest binding in the
innermost frame that has one, and leaving a frame forgets its bindings.
-/

namespace CloudAudit

/-- Where a scan looks: the coordinates of one unit. -/
structure Place where
  provider : String
  service : String
  account : String
  region : String
  deriving DecidableEq, Repr, Inhabited

inductive Binding where
  | value (v : Json)
  | item (i : Item)
  | items (is : List Item)
  | discoveries (c : Cache)
  deriving Inhabited

/-- Bindings of one frame, latest first. -/
abbrev Frame := List (String × Binding)

/-- Frames, innermost first. -/
structure Scope where
  frames : List Frame
  deriving Inhabited

namespace Scope

def empty : Scope := ⟨[[]]⟩

/-- A scope with a new empty frame. -/
def enter (s : Scope) : Scope := ⟨[] :: s.frames⟩

/-- The scope around the innermost frame. -/
def leave (s : Scope) : Scope := ⟨s.frames.drop 1⟩

/-- Adds a binding to the innermost frame. -/
def bind (s : Scope) (name : String) (b : Binding) : Scope :=
  match s.frames with
  | [] => ⟨[[(name, b)]]⟩
  | frame :: outer => ⟨((name, b) :: frame) :: outer⟩

def bindValue (s : Scope) (name : String) (v : Json) : Scope := s.bind name (.value v)

def find? (frames : List Frame) (name : String) : Option Binding :=
  frames.findSome? fun frame => frame.lookup name

/-- What a name is bound to. -/
def lookup (s : Scope) (name : String) : Option Binding := find? s.frames name

/-- Name of the item iterated over. -/
def itemName : String := "item"

/-- Name of the results so far. -/
def discoveriesName : String := "discoveries"

/-- The scope of a unit; `project` is a second name of the account. -/
def ofPlace (p : Place) : Scope :=
  ((((empty.bindValue "provider" (.string p.provider)).bindValue "service" (.string p.service)
    ).bindValue "account" (.string p.account)).bindValue "project" (.string p.account)
    ).bindValue "region" (.string p.region)

end Scope

end CloudAudit
