import CloudAudit.Number.Binary64

/-!
JSON values. An object keeps its fields in order of first appearance; integers between `-2 ^ 63`
and `2 ^ 64 - 1` stay apart from doubles.
-/

namespace CloudAudit

/-- A number is an integer or a finite double. -/
inductive Number where
  | integer (n : Int)
  | double (x : Binary64)
  deriving DecidableEq, Inhabited

/-- The double nearest to a number. -/
def Number.toBinary64 : Number → Binary64
  | .integer n => Binary64.ofInt n
  | .double x => x

inductive Json where
  | null
  | bool (b : Bool)
  | number (n : Number)
  | string (s : String)
  | array (items : List Json)
  | object (fields : List (String × Json))
  deriving Inhabited

/-- Fields of an object in order. -/
abbrev Fields := List (String × Json)

namespace Fields

/-- First value under a key. -/
def get? : Fields → String → Option Json
  | [], _ => none
  | (k, v) :: rest, key => if k = key then some v else get? rest key

/-- Replaces the value of a key in place, or appends a new field. -/
def insert : Fields → String → Json → Fields
  | [], key, value => [(key, value)]
  | (k, v) :: rest, key, value =>
    if k = key then (k, value) :: rest else (k, v) :: insert rest key value

/-- Fields in order of first appearance, each with its last value. -/
def ofPairs (pairs : List (String × Json)) : Fields :=
  pairs.foldl (fun acc (k, v) => acc.insert k v) []

end Fields

namespace Json

def int (n : Int) : Json := .number (.integer n)

def nat (n : Nat) : Json := .number (.integer n)

/-- Field of an object; none for any other value. -/
def get? : Json → String → Option Json
  | .object fields, key => Fields.get? fields key
  | _, _ => none

def asString? : Json → Option String
  | .string s => some s
  | _ => none

def asArray? : Json → Option (List Json)
  | .array items => some items
  | _ => none

def asObject? : Json → Option Fields
  | .object fields => some fields
  | _ => none

def asBool? : Json → Option Bool
  | .bool b => some b
  | _ => none

def isNull : Json → Bool
  | .null => true
  | _ => false

end Json

end CloudAudit
