import CloudAudit.Number.Binary64

/-!
The shortest decimal that reads back as a given double, and its written form.
-/

namespace CloudAudit

-- Powers are core's, also where an algebra library is imported.
attribute [local instance (high)] instPowNat

/-- The decimal `digits · 10 ^ exponent`. -/
structure Decimal where
  digits : Nat
  exponent : Int
  deriving DecidableEq, Repr

namespace Decimal

/-- Drops trailing zeros, at most `fuel` of them. -/
def normalizeAux : Nat → Decimal → Decimal
  | 0, d => d
  | fuel + 1, d =>
    if d.digits ≠ 0 ∧ d.digits % 10 = 0 then normalizeAux fuel ⟨d.digits / 10, d.exponent + 1⟩
    else d

/-- Same value, last digit not zero. -/
def normalize (d : Decimal) : Decimal := normalizeAux (Binary64.decimalLength d.digits) d

end Decimal

namespace Binary64

/-- `a / b ≤ 10 ^ e` on positive rationals. -/
def ratioLePow (a b : Nat) (e : Int) : Bool :=
  if 0 ≤ e then decide (a ≤ b * 10 ^ e.toNat) else decide (a * 10 ^ (-e).toNat ≤ b)

/-- The `e` with `10 ^ e ≤ units · 2 ^ (-1074) < 10 ^ (e + 1)`, from a guess on the binary length. -/
def decimalExponent (units : Nat) : Int :=
  let guess := ((units.log2 : Int) - 1074) * 30103 / 100000
  let one := 2 ^ (1074 : Nat)
  let reaches := fun e : Int => if 0 ≤ e then decide (one * 10 ^ e.toNat ≤ units)
    else decide (one ≤ units * 10 ^ (-e).toNat)
  if reaches (guess + 1) then guess + 1
  else if reaches guess then guess
  else guess - 1

/--
Whether `digits · 10 ^ exponent` rounds to the double of this rank: it lies between the midpoints
to both neighbours, ends included for an even rank.
-/
def readsBack (rank digits : Nat) (exponent : Int) : Bool :=
  let low := unitsOfRank (rank - 1) + unitsOfRank rank
  let high := unitsOfRank rank + unitsOfRank (rank + 1)
  let (num, den) := if 0 ≤ exponent then (digits * 10 ^ exponent.toNat, 1)
    else (digits, 10 ^ (-exponent).toNat)
  let value := num * 2 ^ (1075 : Nat)
  if rank % 2 = 0 then decide (low * den ≤ value) && decide (value ≤ high * den)
  else decide (low * den < value) && decide (value < high * den)

/-- The nearer of the two neighbours on the grid of `count` digits that reads back, if any. -/
def shortestOn? (rank : Nat) (lead : Int) (count : Nat) : Option Decimal :=
  let exponent := lead - (count : Int) + 1
  let units := unitsOfRank rank
  let (num, den) := if 0 ≤ exponent then (units, 2 ^ (1074 : Nat) * 10 ^ exponent.toNat)
    else (units * 10 ^ (-exponent).toNat, 2 ^ (1074 : Nat))
  let nearest := roundHalfEven num den
  let other := if nearest = num / den then nearest + 1 else nearest - 1
  if readsBack rank nearest exponent then some ⟨nearest, exponent⟩
  else if readsBack rank other exponent then some ⟨other, exponent⟩
  else none

/-- The shortest decimal that reads back; seventeen digits always do. -/
def shortest (x : Binary64) : Decimal :=
  if x.rank = 0 then ⟨0, 0⟩
  else
    let lead := decimalExponent x.units
    match (List.range 17).findSome? fun i => shortestOn? x.rank lead (i + 1) with
    | some d => d.normalize
    | none => ⟨0, 0⟩

end Binary64

/-- How a shortest decimal is written: the exponents that stay positional and the exponent mark. -/
structure DecimalLayout where
  leastPositional : Int
  greatestPositional : Int
  exponentMark : String
  positiveSign : String

/--
A double in JSON text: positional from `1e-5` up to below `1e16` with a point in any case, and
otherwise with one digit before the point and a signed exponent.
-/
def jsonLayout : DecimalLayout := ⟨-5, 15, "e", "+"⟩

namespace DecimalLayout

def zeros (n : Nat) : List Char := List.replicate n '0'

/-- Text of a non-negative decimal. -/
def magnitude (layout : DecimalLayout) (d : Decimal) : String :=
  let ds := Nat.toDigits 10 d.digits
  let lead := d.exponent + ds.length - 1
  if d.digits = 0 then "0.0"
  else if layout.leastPositional ≤ lead ∧ lead ≤ layout.greatestPositional then
    if 0 ≤ d.exponent then String.ofList (ds ++ zeros d.exponent.toNat ++ ['.', '0'])
    else if 0 ≤ lead then
      let whole := lead.toNat + 1
      String.ofList (ds.take whole ++ '.' :: ds.drop whole)
    else String.ofList ('0' :: '.' :: zeros (-lead - 1).toNat ++ ds)
  else
    let mantissa := match ds with
      | [] => []
      | [c] => [c]
      | c :: rest => c :: '.' :: rest
    let sign := if lead < 0 then "-" else layout.positiveSign
    String.ofList mantissa ++ layout.exponentMark ++ sign ++ toString lead.natAbs

end DecimalLayout

/-- Text of a double under a layout, with a minus sign also on a negative zero. -/
def Binary64.render (layout : DecimalLayout) (x : Binary64) : String :=
  (if x.negative then "-" else "") ++ layout.magnitude x.shortest

end CloudAudit
