import CloudAudit.Json.Basic
import CloudAudit.Number.Text
import CloudAudit.Yaml.Node

/-!
Values of YAML scalars. A plain scalar is a null, a boolean, an integer or a decimal where it is
written like one, and text otherwise.
-/

namespace CloudAudit.Yaml

-- Powers are core's, also where an algebra library is imported.
attribute [local instance (high)] instPowNat

/-- What a scalar denotes. An integer may be too wide for any number. -/
inductive ScalarValue where
  | value (v : Json)
  | tooWide

namespace ScalarValue

def isNull (text : String) : Bool :=
  text = "null" || text = "Null" || text = "NULL" || text = "~"

def bool? (text : String) : Option Bool :=
  if text = "true" ∨ text = "True" ∨ text = "TRUE" then some true
  else if text = "false" ∨ text = "False" ∨ text = "FALSE" then some false
  else none

/-- Value of digits in a radix; at least one. -/
def inRadix? (radix : Nat) (cs : List Char) : Option Nat := do
  let digits ← cs.mapM hexValue?
  if cs ≠ [] ∧ digits.all (· < radix) then some (digits.foldl (fun n d => radix * n + d) 0)
  else none

/-- Digits with a leading zero are text. -/
def isZeroPadded (cs : List Char) : Bool :=
  let body := match cs with
    | '-' :: rest | '+' :: rest => rest
    | rest => rest
  body.length > 1 && body.head? = some '0' && body.all Char.isDigit

/-- Radix marks after the sign. -/
def inMarkedRadix? : List Char → Option Nat
  | '0' :: 'x' :: rest => inRadix? 16 rest
  | '0' :: 'o' :: rest => inRadix? 8 rest
  | '0' :: 'b' :: rest => inRadix? 2 rest
  | _ => none

/-- An integer: a sign, a radix mark, digits. -/
def integer? (cs : List Char) : Option Int :=
  let (negative, body) := match cs with
    | '-' :: rest => (true, rest)
    | '+' :: rest => (false, rest)
    | rest => (false, rest)
  let magnitude := match inMarkedRadix? body with
    | some n => some n
    | none => if isZeroPadded cs then none else inRadix? 10 body
  magnitude.map fun n => if negative then -(n : Int) else n

/-- Integers of 64 bits are numbers, wider ones up to 128 bits are not. -/
def ofInteger? (cs : List Char) : Option ScalarValue :=
  (integer? cs).bind fun n =>
    if -(2 ^ (63 : Nat)) ≤ n ∧ n < 2 ^ (64 : Nat) then some (.value (.number (.integer n)))
    else if -(2 ^ (127 : Nat)) ≤ n ∧ n < 2 ^ (128 : Nat) then some .tooWide
    else none

/-- A decimal; infinities and not-a-number have no JSON value but null. -/
def decimal? (cs : List Char) : Option Json :=
  let text := String.ofList cs
  let body := match cs with
    | '+' :: rest => rest
    | rest => rest
  let infinite := [".inf", ".Inf", ".INF"]
  if cs.head? = some '+' ∧ (body.head? = some '+' ∨ body.head? = some '-') then none
  else if infinite.contains (String.ofList body) then some .null
  else if ["-.inf", "-.Inf", "-.INF", ".nan", ".NaN", ".NAN"].contains text then some .null
  else (Number.finite? body).map fun x => .number (.double x)

/-- Value of a plain scalar without a tag. -/
def ofPlain (text : String) : ScalarValue :=
  let cs := text.toList
  if text = "" || isNull text then .value .null
  else match bool? text with
    | some b => .value (.bool b)
    | none => match ofInteger? cs with
      | some v => v
      | none => match if isZeroPadded cs then none else decimal? cs with
        | some v => .value v
        | none => .value (.string text)

def boolTag : String := "tag:yaml.org,2002:bool"
def intTag : String := "tag:yaml.org,2002:int"
def floatTag : String := "tag:yaml.org,2002:float"
def nullTag : String := "tag:yaml.org,2002:null"

/-- Value of a scalar; none when it is not what its tag says, or its tag is a local one. -/
def json? (tag : Option String) (text : String) (plain : Bool) : Option Json :=
  let numeric? : Option ScalarValue → Option Json
    | some (.value v) => some v
    | _ => none
  match tag with
  | none => if plain then numeric? (some (ofPlain text)) else some (.string text)
  | some tag =>
    if tag.toList.head? = some '!' then none
    else if tag = boolTag then (bool? text).map .bool
    else if tag = intTag then numeric? (ofInteger? text.toList)
    else if tag = floatTag then decimal? text.toList
    else if tag = nullTag then (if isNull text then some .null else none)
    else some (.string text)

end ScalarValue

end CloudAudit.Yaml
