/-!
Finite double-precision numbers as exact data: a sign and the place of the magnitude among all
finite magnitudes in ascending order. Equality, order and rounding are integer arithmetic, so
nothing here rests on machine floating point.
-/

namespace CloudAudit

-- Powers are core's, also where an algebra library is imported.
attribute [local instance (high)] instPowNat

/-- Quotient to the nearest integer; a half goes to the even neighbour. -/
def roundHalfEven (num den : Nat) : Nat :=
  let q := num / den
  let r := 2 * (num % den)
  if r < den then q
  else if den < r then q + 1
  else if q % 2 = 0 then q
  else q + 1

/-- A finite double. `rank` counts the non-negative finite doubles below the magnitude. -/
structure Binary64 where
  negative : Bool
  rank : Nat
  finite : rank < 2047 * 2 ^ (52 : Nat)
  deriving DecidableEq

namespace Binary64

/-- One more than the greatest rank. -/
def rankBound : Nat := 2047 * 2 ^ (52 : Nat)

def zero : Binary64 := ⟨false, 0, by decide⟩

def greatest : Binary64 := ⟨false, 2047 * 2 ^ (52 : Nat) - 1, by decide⟩

instance : Inhabited Binary64 := ⟨zero⟩

def neg (x : Binary64) : Binary64 := { x with negative := !x.negative }

/-- Magnitude of a rank as a multiple of the least positive double, `2 ^ (-1074)`. -/
def unitsOfRank (rank : Nat) : Nat :=
  if rank < 2 ^ (52 : Nat) then rank
  else (2 ^ (52 : Nat) + rank % 2 ^ (52 : Nat)) * 2 ^ (rank / 2 ^ (52 : Nat) - 1)

def units (x : Binary64) : Nat := unitsOfRank x.rank

/-- Rank nearest to `num / den`, ties to the even rank, with no upper limit. -/
def nearestRank (num den : Nat) : Nat :=
  let scaled := num * 2 ^ (1074 : Nat)
  let whole := scaled / den
  if whole < 2 ^ (53 : Nat) then roundHalfEven scaled den
  else
    let shift := whole.log2 - 52
    (shift + 1) * 2 ^ (52 : Nat) + (roundHalfEven scaled (den * 2 ^ shift) - 2 ^ (52 : Nat))

def ofRank? (negative : Bool) (rank : Nat) : Option Binary64 :=
  if h : rank < 2047 * 2 ^ (52 : Nat) then some ⟨negative, rank, h⟩ else none

/-- Double nearest to `± num / den`; none when that rounds beyond the greatest double. -/
def ofRatio? (negative : Bool) (num den : Nat) : Option Binary64 :=
  ofRank? negative (nearestRank num den)

/-- Double nearest to an integer; integers beyond the greatest double give the greatest. -/
def ofInt (n : Int) : Binary64 :=
  match ofRatio? (n < 0) n.natAbs 1 with
  | some x => x
  | none => { greatest with negative := n < 0 }

/-- How many decimal digits `n` has; zero has one. -/
def decimalLength (n : Nat) : Nat := (Nat.toDigits 10 n).length

/--
Double nearest to `± digits · 10 ^ exponent`. The two early exits keep powers of ten small: no
double is as large as `10 ^ 310`, and all below `10 ^ (-330)` round to zero.
-/
def ofDecimal? (negative : Bool) (digits : Nat) (exponent : Int) : Option Binary64 :=
  let lead := exponent + decimalLength digits
  if digits = 0 ∨ lead < -330 then some { zero with negative }
  else if 310 < lead then none
  else if 0 ≤ exponent then ofRatio? negative (digits * 10 ^ exponent.toNat) 1
  else ofRatio? negative digits (10 ^ (-exponent).toNat)

/-- Product rounded to the nearest double. -/
def mul? (x y : Binary64) : Option Binary64 :=
  ofRatio? (x.negative != y.negative) (x.units * y.units) (2 ^ (2148 : Nat))

/-- Quotient rounded to the nearest double; none for a zero divisor. -/
def div? (x y : Binary64) : Option Binary64 :=
  if y.units = 0 then none
  else ofRatio? (x.negative != y.negative) x.units y.units

/-- Order key: ranks with their sign, so both zeros share a key. -/
def signedRank (x : Binary64) : Int := if x.negative then -(x.rank : Int) else x.rank

/-- Numeric equality: the two zeros are equal. -/
def eqv (x y : Binary64) : Bool := x.signedRank == y.signedRank

def lt (x y : Binary64) : Bool := decide (x.signedRank < y.signedRank)

def le (x y : Binary64) : Bool := decide (x.signedRank ≤ y.signedRank)

end Binary64

end CloudAudit
