/-!
Moments: milliseconds since the start of 1970, and their text in the Gregorian calendar.
-/

namespace CloudAudit

/-- Milliseconds since the start of 1970, in universal time. -/
structure Moment where
  millis : Int
  deriving DecidableEq, Repr, Inhabited

namespace Moment

/-- Milliseconds from one moment to a later one; none at all when it is earlier. -/
def elapsed (start finish : Moment) : Nat := (finish.millis - start.millis).toNat

/-- Days in 400 years. -/
def cycleDays : Int := 146097

/--
Year, month and day of a day counted from the start of 1970. Years are counted from March, so that
the leap day is the last day of a year: every fourth year has one, but of the last years of
centuries only every fourth.
-/
def date (day : Int) : Int × Nat × Nat :=
  let shifted := day + 719468
  let cycle := shifted / cycleDays
  let inCycle := (shifted % cycleDays).toNat
  let year := (inCycle - inCycle / 1460 + inCycle / 36524 - inCycle / 146096) / 365
  let inYear := inCycle - (365 * year + year / 4 - year / 100)
  let month := (5 * inYear + 2) / 153
  let monthOfYear := if month < 10 then month + 3 else month - 9
  let march := 400 * cycle + year
  (if monthOfYear ≤ 2 then march + 1 else march, monthOfYear, inYear - (153 * month + 2) / 5 + 1)

/-- Decimal text of at least so many digits. -/
def padded (width n : Nat) : String :=
  let digits := toString n
  String.ofList (List.replicate (width - digits.length) '0') ++ digits

/-- Text with the date, the time to the millisecond and a zone of zero. -/
def render (m : Moment) : String :=
  let (year, month, day) := date (m.millis / 86400000)
  let inDay := (m.millis % 86400000).toNat
  padded 4 year.toNat ++ "-" ++ padded 2 month ++ "-" ++ padded 2 day ++ "T" ++
    padded 2 (inDay / 3600000) ++ ":" ++ padded 2 (inDay / 60000 % 60) ++ ":" ++
    padded 2 (inDay / 1000 % 60) ++ "." ++ padded 3 (inDay % 1000) ++ "Z"

end Moment

end CloudAudit
