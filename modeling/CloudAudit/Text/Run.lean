import CloudAudit.Number.Text

/-!
Tables over all code points, as runs of equal values. The value of a code point is that of the last
run that starts at or before it.
-/

namespace CloudAudit.Text

/--
Runs as first code point and value. In the text, each value has a fixed number of characters and
the length of its run follows; a length that is left out is one.
-/
def readRuns (width : Nat) : Nat → Nat → List Char → List (Nat × String)
  | 0, _, _ => []
  | _, _, [] => []
  | fuel + 1, start, cs =>
    let rest := cs.drop width
    let digits := rest.takeWhile Number.isDigit
    let length := if digits = [] then 1 else Number.ofDigits digits
    (start, String.ofList (cs.take width)) ::
      readRuns width fuel (start + length) (rest.dropWhile Number.isDigit)

/-- Runs in ascending order of their starts. -/
structure RunTable where
  runs : Array (Nat × String)

namespace RunTable

/-- The table that lines of runs denote. No run goes on from one line to the next. -/
def ofLines (width : Nat) (lines : List String) : RunTable :=
  let text := lines.flatMap String.toList
  ⟨(readRuns width text.length 0 text).toArray⟩

/-- Value of the last run that starts at or before `n`, looked for between two positions. -/
def valueBetween (t : RunTable) (n : Nat) : Nat → Nat → Nat → String
  | 0, low, _ => (t.runs[low]?.map (·.2)).getD ""
  | fuel + 1, low, high =>
    if high ≤ low + 1 then (t.runs[low]?.map (·.2)).getD ""
    else
      let middle := (low + high) / 2
      if (t.runs[middle]?.map (·.1)).getD 0 ≤ n then valueBetween t n fuel middle high
      else valueBetween t n fuel low middle

/-- Value of a character. A table has less than `2 ^ 32` runs, so halving ends. -/
def value (t : RunTable) (c : Char) : String := t.valueBetween c.toNat 32 0 t.runs.size

end RunTable

/-- Whether a character is in one of the ranges, each given by its start and its length. -/
def inRanges (ranges : List (Nat × Nat)) (c : Char) : Bool :=
  ranges.any fun (start, length) => start ≤ c.toNat && c.toNat < start + length

end CloudAudit.Text
