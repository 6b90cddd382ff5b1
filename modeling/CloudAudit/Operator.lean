import CloudAudit.Text.Affix

/-!
Operators of check conditions.
-/

namespace CloudAudit

inductive Operator where
  | exist
  | equals
  | notEquals
  | contains
  | notContains
  | gt
  | gte
  | lt
  | lte
  | isIn
  deriving DecidableEq, Repr

namespace Operator

def name : Operator → String
  | exist => "exists"
  | equals => "equals"
  | notEquals => "not_equals"
  | contains => "contains"
  | notContains => "not_contains"
  | gt => "gt"
  | gte => "gte"
  | lt => "lt"
  | lte => "lte"
  | isIn => "in"

/-- Orderings need numbers on both sides. -/
def isNumeric : Operator → Bool
  | gt | gte | lt | lte => true
  | _ => false

/-- Every operator, in order of declaration. -/
def all : List Operator :=
  [exist, equals, notEquals, contains, notContains, gt, gte, lt, lte, isIn]

/-- Short second names. -/
def aliases : List (String × Operator) := [("eq", equals), ("ne", notEquals)]

/-- Text as compared with the names: blanks around it dropped, ASCII letters lowered. -/
def fold (text : String) : String := String.ofList ((Text.trim text.toList).map Char.toLower)

/-- Reads an operator by name or second name. -/
def parse? (text : String) : Option Operator :=
  let folded := fold text
  match all.find? (·.name = folded) with
  | some op => some op
  | none => aliases.lookup folded

end Operator

end CloudAudit
