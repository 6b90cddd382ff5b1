import CloudAudit.Json.Basic
import CloudAudit.Number.Text
import CloudAudit.Operator
import CloudAudit.Text.Affix

/-!
Evaluating operators on values. A value that is missing satisfies no operator; values an operator
cannot compare satisfy it neither, and give a warning.
-/

namespace CloudAudit

namespace Json

/-- Kind of a value in words. -/
def kindName : Json → String
  | .null => "null"
  | .bool _ => "bool"
  | .number _ => "number"
  | .string _ => "string"
  | .array _ => "list"
  | .object _ => "map"

mutual

/-- Equality of values: numbers as doubles, objects without regard to order. -/
def alike : Json → Json → Bool
  | .null, .null => true
  | .bool a, .bool b => a = b
  | .number a, .number b => a.toBinary64.eqv b.toBinary64
  | .string a, .string b => a = b
  | .array as, .array bs => alikeItems as bs
  | .object as, .object bs => as.length = bs.length && alikeFields as bs
  | _, _ => false

def alikeItems : List Json → List Json → Bool
  | [], [] => true
  | a :: as, b :: bs => alike a b && alikeItems as bs
  | _, _ => false

/-- Every field has an equal one under the same key. -/
def alikeFields : List (String × Json) → List (String × Json) → Bool
  | [], _ => true
  | (k, a) :: as, bs =>
    (match Fields.get? bs k with
      | some b => alike a b
      | none => false) && alikeFields as bs

end

/-- A number, or a text that reads as a finite one. -/
def toBinary64? : Json → Option Binary64
  | .number n => some n.toBinary64
  | .string s => Number.finite? (Text.trim s.toList)
  | _ => none

end Json

/-- Why values do not fit an operator. -/
inductive Mismatch where
  | notNumeric (actual expected : String)
  | needleKind (expected : String)
  | notSearchable (actual : String)
  | notList (expected : String)
  deriving DecidableEq, Repr

namespace Mismatch

def message : Mismatch → String
  | notNumeric actual expected =>
    "cannot compare " ++ actual ++ " with " ++ expected ++ " numerically"
  | needleKind expected => "substring match needs a string, got " ++ expected
  | notSearchable actual => "cannot search inside " ++ actual
  | notList expected => "expected value must be a list, got " ++ expected

end Mismatch

/-- Outcome of an operator, with a warning where the values do not fit it. -/
structure Verdict where
  passed : Bool
  warning : Option Mismatch := none
  deriving DecidableEq, Repr

namespace Operator

/-- Whether a text contains a text, or a list an equal element. -/
def containsValue (actual expected : Json) : Except Mismatch Bool :=
  match actual with
  | .string text => match expected with
    | .string needle => .ok (Text.contains text needle)
    | other => .error (.needleKind other.kindName)
  | .array elements => .ok (elements.any fun e => e.alike expected)
  | other => .error (.notSearchable other.kindName)

def ordered (op : Operator) (a b : Binary64) : Bool :=
  match op with
  | .gt => b.lt a
  | .gte => b.le a
  | .lt => a.lt b
  | _ => a.le b

def compareNumbers (op : Operator) (actual expected : Json) : Verdict :=
  match actual.toBinary64?, expected.toBinary64? with
  | some a, some b => ⟨op.ordered a b, none⟩
  | _, _ => ⟨false, some (.notNumeric actual.kindName expected.kindName)⟩

/-- Outcome for a value that is there. -/
def evaluatePresent (op : Operator) (actual expected : Json) : Verdict :=
  match op with
  | .exist => ⟨!actual.isNull, none⟩
  | .equals => ⟨actual.alike expected, none⟩
  | .notEquals => ⟨!actual.alike expected, none⟩
  | .contains => match containsValue actual expected with
    | .ok found => ⟨found, none⟩
    | .error w => ⟨false, some w⟩
  | .notContains => match containsValue actual expected with
    | .ok found => ⟨!found, none⟩
    | .error w => ⟨false, some w⟩
  | .gt | .gte | .lt | .lte => op.compareNumbers actual expected
  | .isIn => match expected with
    | .array candidates => ⟨candidates.any fun c => actual.alike c, none⟩
    | other => ⟨false, some (.notList other.kindName)⟩

/-- Outcome of an operator; a missing value fails. -/
def evaluate (op : Operator) (actual : Option Json) (expected : Json) : Verdict :=
  match actual with
  | none => ⟨false, none⟩
  | some v => op.evaluatePresent v expected

/-- A warning with its operator. -/
def warningText (op : Operator) (w : Mismatch) : String := op.name ++ ": " ++ w.message

end Operator

end CloudAudit
