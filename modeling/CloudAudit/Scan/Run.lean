import CloudAudit.Report.Summary
import CloudAudit.Scan.Pool
import CloudAudit.Scan.Unit

/-!
Running a whole scan: a pool of workers goes through the units, and every unit ends up in the report.
-/

namespace CloudAudit

/-- Why a scan does not start. -/
inductive ScanError where
  | invalidFilter (cause : InvalidFilter)
  | emptyMatrix (accounts regions catalogs : Nat)
  deriving DecidableEq, Repr

namespace ScanError

def message : ScanError → String
  | invalidFilter cause => cause.message
  | emptyMatrix accounts regions catalogs =>
    "No scan units to run: " ++ toString accounts ++ " accounts, " ++ toString regions ++
      " regions and " ++ toString catalogs ++ " catalogs left after filtering"

end ScanError

def crashedText : String := "unit worker panicked"

def abandonedText : String := "unit not run: all scan workers stopped"

/-- The entry of a unit in the report of a scan. -/
def PlannedUnit.entry (u : PlannedUnit) : Pool.Fate UnitReport → UnitReport
  | .reported r => r
  | .crashed => .failed u.unit u.catalog.provider crashedText
  | .cancelled => .cancelled u.unit u.catalog.provider
  | .abandoned => .failed u.unit u.catalog.provider abandonedText

/-- Entries of units from a position on. -/
def entriesFrom (p : Pool UnitReport) : Nat → List PlannedUnit → List UnitReport
  | _, [] => []
  | position, u :: rest => u.entry (p.fate position) :: entriesFrom p (position + 1) rest

/-- Entries of all planned units, in order. -/
def entries (planned : List PlannedUnit) (p : Pool UnitReport) : List UnitReport :=
  entriesFrom p 0 planned

namespace ScanConfig

/-- Workers a scan starts: at least one, and no more than there are units. -/
def workerCount (c : ScanConfig) (units : Nat) : Nat := max 1 (min c.workers units)

end ScanConfig

section

-- The clock is read when a unit starts and when it finishes: `clock` is what each reading shows.
variable {σ : Type} (client : Client σ) (config : ScanConfig) (clock : Nat → Moment)
  (planned : List PlannedUnit)

/-- A move that can be made is made. -/
def Pool.tryMove {ρ : Type} (p : Pool ρ) (m : Move ρ) : Pool ρ := (p.move m).getD p

/-- The pool with the wish of a client to stop the scan taken in. -/
def heed (p : Pool UnitReport) (s : Session σ) : Pool UnitReport :=
  if s.cancelled then p.tryMove .cancel else p

/-- One worker goes on until it is done. It takes at most as many units as there are. -/
def runWorker (worker : Nat) : Nat → Pool UnitReport → Session σ → Pool UnitReport × Session σ
  | 0, p, s => (p, s)
  | fuel + 1, p, s =>
    let p := ((heed p s).tryMove (.look worker)).tryMove (.take worker)
    match p.workers[worker]? with
    | some (.running position) => match planned[position]? with
      | some u =>
        let (report, s) :=
          u.run client config (clock (2 * position)) (clock (2 * position + 1)) s
        runWorker worker fuel ((p.tryMove (.run worker report)).tryMove (.handIn worker)) s
      | none => (p, s)
    | _ => (p, s)

/-- One worker after the other: the next one starts where the one before it has stopped. -/
def runPool : List Nat → Pool UnitReport → Session σ → Pool UnitReport × Session σ
  | [], p, s => (heed p s, s)
  | worker :: rest, p, s =>
    let (p, s) := runWorker client config clock planned worker (planned.length + 1) p s
    runPool rest p s

/-- Runs all units of a scan. -/
def runUnits (s : Session σ) : List UnitReport × Session σ :=
  let workers := config.workerCount planned.length
  let (p, s) := runPool client config clock planned (List.range workers)
    (.start planned.length workers) s
  (entries planned p, s)

end

/--
Runs a scan over catalogs; a scan without units is refused. The scan starts `now`, and `clock` is
what the clock shows when it is read again: twice for each unit, and at the end. It stands still
unless something is said of it.
-/
def ScanConfig.run {σ : Type} (config : ScanConfig) (client : Client σ) (catalogs : List Catalog)
    (scanId : String) (host : Host) (now : Moment) (s : Session σ)
    (clock : Nat → Moment := fun _ => now) : Except ScanError ScanReport × Session σ :=
  let planned := config.matrix catalogs
  if planned.isEmpty then
    (.error (.emptyMatrix config.accounts.length config.regions.length catalogs.length), s)
  else
    let (units, s) := runUnits client config clock planned s
    let finishedAt := clock (2 * planned.length)
    (.ok { scanId, startedAt := now, finishedAt, host, units }, s)

end CloudAudit
