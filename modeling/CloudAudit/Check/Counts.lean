import CloudAudit.Check.Result

/-!
How many rows there are of each status.
-/

namespace CloudAudit

structure StatusCounts where
  pass : Nat := 0
  fail : Nat := 0
  skip : Nat := 0
  error : Nat := 0
  deriving DecidableEq, Repr, Inhabited

namespace StatusCounts

/-- Counts one more row. -/
def record (c : StatusCounts) : CheckStatus → StatusCounts
  | .pass => { c with pass := c.pass + 1 }
  | .fail => { c with fail := c.fail + 1 }
  | .skip => { c with skip := c.skip + 1 }
  | .error => { c with error := c.error + 1 }

/-- Adds up two counts, status by status. -/
def merge (a b : StatusCounts) : StatusCounts :=
  ⟨a.pass + b.pass, a.fail + b.fail, a.skip + b.skip, a.error + b.error⟩

def total (c : StatusCounts) : Nat := c.pass + c.fail + c.skip + c.error

def ofResults (rows : List CheckResult) : StatusCounts :=
  rows.foldl (fun c r => c.record r.status) {}

def toJson (c : StatusCounts) : Json :=
  .object [("pass", Json.nat c.pass), ("fail", Json.nat c.fail), ("skip", Json.nat c.skip),
    ("error", Json.nat c.error)]

end StatusCounts

end CloudAudit
