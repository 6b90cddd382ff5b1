import CloudAudit.Report.Unit

/-!
File names of units. A stem has safe characters only, and a number is appended where a stem is in
use already.
-/

namespace CloudAudit

namespace Stem

/-- Characters that may stand in the name of a file. -/
def isSafe (c : Char) : Bool := c.isAlphanum || c = '.' || c = '_' || c = '-'

/-- A text with each unsafe character replaced; it is never empty. -/
def sanitize (text : String) : String :=
  if text = "" then "_" else String.ofList (text.toList.map fun c => if isSafe c then c else '_')

/-- A stem with a number. -/
def numbered (stem : String) (n : Nat) : String := stem ++ "-" ++ toString n

/-- The stem itself and then its numbered forms from two on, `count` in all. -/
def candidates (stem : String) : Nat → List String
  | 0 => []
  | count + 1 => stem :: (List.range count).map fun i => numbered stem (i + 2)

/-- The first candidate not in use. Among one more candidate than stems in use, one is free. -/
def fresh (used : List String) (stem : String) : String :=
  ((candidates stem (used.length + 1)).find? fun s => !used.contains s).getD stem

end Stem

/-- The stem a unit asks for. -/
def ScanUnit.stem (u : ScanUnit) : String :=
  Stem.sanitize u.account ++ "_" ++ Stem.sanitize u.region ++ "_" ++ Stem.sanitize u.service

end CloudAudit
