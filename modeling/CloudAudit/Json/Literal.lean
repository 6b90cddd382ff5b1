import CloudAudit.Json.Basic

/-!
Number literals of JSON text and the numbers they denote.
-/

namespace CloudAudit

-- Powers are core's, also where an algebra library is imported.
attribute [local instance (high)] instPowNat

/-- The digits of a JSON number literal, not yet read as a number. -/
structure NumberLiteral where
  negative : Bool
  whole : List Char
  fraction : List Char
  /-- Sign (true for minus) and digits of the exponent. -/
  exponent : Option (Bool × List Char)

namespace NumberLiteral

def digitValue (c : Char) : Nat := c.toNat - '0'.toNat

def natOfDigits (ds : List Char) : Nat := ds.foldl (fun n c => 10 * n + digitValue c) 0

def maxWord : Nat := 2 ^ (64 : Nat) - 1

/-- Reads digits onto a significand while it fits 64 bits, and gives those left over. -/
def absorb : Nat → List Char → Nat × List Char
  | n, [] => (n, [])
  | n, c :: rest =>
    let next := 10 * n + digitValue c
    if next ≤ maxWord then absorb next rest else (n, c :: rest)

/-- The nearest double to `10 ^ e`. -/
def powerOfTen (e : Nat) : Binary64 := (Binary64.ofDecimal? false 1 e).getD Binary64.zero

/--
Scales by a power of ten with one rounded division or product. Below `-308` the value is first
divided by `10 ^ 308`; three such steps leave nothing of any significand.
-/
def scale : Nat → Binary64 → Int → Option Binary64
  | 0, x, _ => some { Binary64.zero with negative := x.negative }
  | steps + 1, x, e =>
    if 0 ≤ e then
      if e ≤ 308 then x.mul? (powerOfTen e.toNat)
      else if x.rank = 0 then some x else none
    else if -308 ≤ e then x.div? (powerOfTen (-e).toNat)
    else if x.rank = 0 then some x
    else (x.div? (powerOfTen 308)).bind fun y => scale steps y (e + 308)

/--
The double of a literal: at most 64 bits of digits are read, rounded once, and scaled by a power
of ten. None when it overflows.
-/
def toBinary64? (lit : NumberLiteral) : Option Binary64 :=
  let (head, unread) := absorb 0 lit.whole
  let (significand, dropped) := absorb head lit.fraction
  let point : Int := unread.length - ((lit.fraction.length - dropped.length : Nat) : Int)
  let exponent : Int := match lit.exponent with
    | none => point
    | some (true, ds) => point - natOfDigits ds
    | some (false, ds) => point + natOfDigits ds
  (scale 4 (Binary64.ofInt significand) exponent).map fun x => { x with negative := lit.negative }

/-- An integer in the 64-bit range stays one; minus zero and all else are doubles. -/
def toNumber? (lit : NumberLiteral) : Option Number :=
  let n := natOfDigits lit.whole
  if lit.fraction.isEmpty && lit.exponent.isNone then
    if lit.negative then
      if n ≠ 0 ∧ n ≤ 2 ^ (63 : Nat) then some (.integer (-n)) else lit.toBinary64?.map .double
    else if n ≤ maxWord then some (.integer n) else lit.toBinary64?.map .double
  else lit.toBinary64?.map .double

end NumberLiteral

end CloudAudit
