import CloudAudit.Number.Binary64

/-!
Integers and decimals written in plain text.
-/

namespace CloudAudit.Number

-- Powers are core's, also where an algebra library is imported.
attribute [local instance (high)] instPowNat

def isDigit (c : Char) : Bool := '0' ≤ c && c ≤ '9'

def digit (c : Char) : Nat := c.toNat - '0'.toNat

/-- Value of a list of decimal digits. -/
def ofDigits (ds : List Char) : Nat := ds.foldl (fun n c => 10 * n + digit c) 0

/-- An unsigned integer: digits only, at least one. -/
def natural? (cs : List Char) : Option Nat :=
  if cs ≠ [] ∧ cs.all isDigit then some (ofDigits cs) else none

/-- Sign of a number, true for minus, and the text after it. -/
def splitSign : List Char → Bool × List Char
  | '-' :: rest => (true, rest)
  | '+' :: rest => (false, rest)
  | rest => (false, rest)

/-- An integer with an optional sign, between `-2 ^ 63` and `2 ^ 63 - 1`. -/
def int64? (cs : List Char) : Option Int :=
  let (negative, body) := splitSign cs
  (natural? body).bind fun n =>
    let value : Int := if negative then -n else n
    if -(2 ^ (63 : Nat)) ≤ value ∧ value < 2 ^ (63 : Nat) then some value else none

/-- An integer with an optional plus sign, at most `2 ^ 64 - 1`. -/
def uint64? (cs : List Char) : Option Nat :=
  let body := match cs with
    | '+' :: rest => rest
    | rest => rest
  (natural? body).bind fun n => if n < 2 ^ (64 : Nat) then some n else none

/-- Exponent of a decimal after its mark. -/
def exponent? (cs : List Char) : Option Int :=
  let (negative, body) := splitSign cs
  (natural? body).map fun n => if negative then -(n : Int) else n

/--
A finite decimal: a sign, digits around at most one point with at least one digit in all, and an
exponent. It rounds to the nearest double; none when it overflows.
-/
def finite? (cs : List Char) : Option Binary64 :=
  let (negative, body) := splitSign cs
  let whole := body.takeWhile isDigit
  let rest := body.dropWhile isDigit
  let (fraction, rest) := match rest with
    | '.' :: rest => (rest.takeWhile isDigit, rest.dropWhile isDigit)
    | rest => ([], rest)
  if whole = [] ∧ fraction = [] then none
  else
    let exponent := match rest with
      | [] => some 0
      | 'e' :: rest | 'E' :: rest => exponent? rest
      | _ => none
    exponent.bind fun e =>
      Binary64.ofDecimal? negative (ofDigits (whole ++ fraction)) (e - fraction.length)

end CloudAudit.Number
