import CloudAudit.CommandLine.Option
import CloudAudit.Config.Text
import CloudAudit.Run

/-!
The commands of the program, and what they print.
-/

namespace CloudAudit

inductive Command where
  /-- Makes a scan; the configuration file comes first, values of the command line replace its own. -/
  | scan (configFile : Option String) (overrides : Overrides)
  /-- Compiles catalogs and shows their plans. -/
  | validate (catalogDir : String)
  deriving DecidableEq, Repr

namespace CommandLine

def verboseSpec : OptionSpec := { long := "verbose", short := some 'v', kind := .switch }

def helpSpec : OptionSpec := { long := helpName, short := some 'h', kind := .switch }

def versionSpec : OptionSpec := { long := versionName, short := some 'V', kind := .switch }

def mainSpecs : List OptionSpec := [verboseSpec, helpSpec, versionSpec]

def scanSpecs : List OptionSpec :=
  [{ long := "config", short := some 'c', value := .location },
    { long := "catalog", value := .location },
    { long := "output", short := some 'o', value := .location },
    { long := "account", kind := .repeated }, { long := "region", kind := .repeated },
    { long := "service", kind := .repeated },
    { long := "workers", short := some 'w', value := .count },
    { long := "fixtures", value := .location }, verboseSpec, helpSpec]

def validateSpecs : List OptionSpec :=
  [{ long := "catalog", value := .location }, verboseSpec, helpSpec]

def scanName : String := "scan"

def validateName : String := "validate"

/-- Options of a command, with nothing after them. -/
def onlyOptions (specs : List OptionSpec) (words : List String) : Except Stop Given :=
  match readOptions specs [] words with
  | .ok (given, []) => .ok given
  | .ok (_, _ :: _) => .error .usage
  | .error stop => .error stop

def scanCommand (g : Given) : Command :=
  .scan (g.value? "config")
    { catalogDir := g.value? "catalog", outputDir := g.value? "output",
      accounts := g.values "account", regions := g.values "region",
      services := g.values "service",
      workers := (g.value? "workers").bind fun v => Number.uint64? v.toList,
      fixtureDir := g.value? "fixtures" }

/-- The command that the words of a command line ask for. -/
def parse (words : List String) : Except Stop Command := do
  let (_, words) ← readOptions mainSpecs [] words
  match words with
  | [] => .error .usage
  | name :: words =>
    if name = scanName then (onlyOptions scanSpecs words).map scanCommand
    else if name = validateName then
      let given ← onlyOptions validateSpecs words
      match given.value? "catalog" with
      | some directory => pure (.validate directory)
      | none => .error .usage
    else if name = helpName && (match words with
      | [] => true
      | [topic] => [scanName, validateName, helpName].contains topic
      | _ => false) then .error .help
    else .error .usage

end CommandLine

/-- How a command ends. -/
structure Ending where
  exitCode : Nat
  /-- Lines for standard output, given the time that has passed. -/
  lines : String → List String := fun _ => []
  error : Option String := none

namespace Ending

def ofError (e : RunError) : Ending := { exitCode := e.exitCode, error := some ("Error: " ++ e.message) }

end Ending

/-- What a command does: steps on files, and then an end that depends on whether they could be taken. -/
structure Work where
  steps : List FileStep := []
  ending : Option OutputError → Ending

namespace Work

def failed (e : RunError) : Work := { ending := fun _ => .ofError e }

/-- Does the work on a tree of files. -/
def perform (w : Work) (t : FileTree) : Ending × FileTree :=
  let (t, failed) := FileTree.perform w.steps t
  (w.ending (failed.map .ofStep), t)

end Work

/-- Lines that show the results of a scan. -/
def ScanReport.lines (r : ScanReport) : List String :=
  let count (s : UnitStatus) := toString (r.countUnits s)
  let summary := r.summary
  let totals := r.totals
  ["", "=== Scan Results ===", "Scan ID: " ++ r.scanId,
    "Units: " ++ count .completed ++ " completed, " ++ count .error ++ " error, " ++
      count .cancelled ++ " cancelled",
    "Accounts: " ++ toString summary.accounts.length ++ "  Regions: " ++
      toString summary.regions.length ++ "  Services: " ++ toString summary.services.length,
    "Passed: " ++ toString totals.pass, "Failed: " ++ toString totals.fail,
    "Skipped: " ++ toString totals.skip, "Errors: " ++ toString totals.error] ++
  (r.units.filter (·.status = .error)).map fun u =>
    "  ✗ " ++ u.unit.render ++ ": " ++ u.error.getD "unit failed"

/-- Lines that show a catalog and the waves of its plan. -/
def Catalog.lines (c : Catalog) : List String :=
  ("✓ " ++ c.service ++ " (" ++ c.provider ++ ", " ++
    (if c.isGlobal then "Global" else "Regional") ++ "): " ++ toString c.discoveries.length ++
    " discoveries, " ++ toString c.checks.length ++ " checks") ::
  c.plan.waves.mapIdx fun i ids =>
    "    wave " ++ toString (i + 1) ++ ": " ++ String.intercalate ", " ids

/-- Lines that show which catalogs compile. -/
def CatalogBatch.lines (b : CatalogBatch) (elapsed : String) : List String :=
  ["", "=== Catalog Validation ==="] ++ b.catalogs.flatMap Catalog.lines ++
    (b.failed.map fun (location, e) => "✗ " ++ location ++ ": " ++ e.message) ++
    ["", b.summary elapsed]

namespace Command

/-- The configuration of a scan. -/
def config (configFile : Option String) (overrides : Overrides) (t : FileTree) :
    Except ConfigError RunConfig :=
  match configFile with
  | some location => (RunConfig.ofFile t location).map fun c => c.override overrides
  | none => .ok (RunConfig.override {} overrides)

/-- Makes a scan, to be written. -/
def scanWork (c : RunConfig) (e : Surroundings) : Work :=
  match (c.scan e false).1 with
  | .error cause => .failed cause
  | .ok report =>
    { steps := report.steps c.resultDir
      ending := fun
        | some cause => .ofError (.output cause)
        | none =>
          { exitCode := 0
            lines := fun elapsed => report.lines ++ ["Duration: " ++ elapsed, "",
              "[OK] Results saved to: " ++ report.directory c.resultDir] } }

def work (command : Command) (e : Surroundings) : Work :=
  match command with
  | scan configFile overrides => match config configFile overrides e.files with
    | .error cause => .failed (.config cause)
    | .ok c => scanWork c e
  | validate directory => match CatalogBatch.ofDirectory e.files directory with
    | .error cause => .failed (.catalog cause)
    | .ok b => { ending := fun _ => { exitCode := if b.isClean then 0 else 2, lines := b.lines } }

/-- Directories that a command reads. -/
def directories (command : Command) (t : FileTree) : List String :=
  match command with
  | scan configFile overrides => match config configFile overrides t with
    | .error _ => []
    | .ok c => c.catalogDir.toList ++ match c.client with
      | some (.fixtures directory) => [directory]
      | _ => []
  | validate directory => [directory]

/-- Environment variables that a command reads. -/
def variableNames (command : Command) (t : FileTree) : List String :=
  match command with
  | scan configFile overrides => match config configFile overrides t with
    | .ok { client := some (.rest settings), .. } => settings.tokenVariable.toList
    | _ => []
  | validate _ => []

end Command

namespace CommandLine

/-- Seconds with two places, from milliseconds; a half goes up. -/
def elapsedText (ms : Nat) : String :=
  let hundredths := (ms + 5) / 10
  let digits := toString (hundredths % 100)
  toString (hundredths / 100) ++ "." ++ (if digits.length < 2 then "0" ++ digits else digits) ++ "s"

def versionLine : String := "scanner 0.1.0"

def helpLines : List String :=
  ["Declarative cloud posture scanner", "", "Usage: scanner [-v] <command> [options]", "",
    "Commands:",
    "  scan      Scan accounts, regions and services and write the artifact set",
    "  validate  Load, compile and plan every catalog without calling any API", "",
    "Options of scan:",
    "  -c, --config <FILE>      TOML run configuration",
    "      --catalog <DIR>",
    "  -o, --output <DIR>",
    "      --account <ID>       may be repeated",
    "      --region <REGION>    may be repeated",
    "      --service <SERVICE>  may be repeated",
    "  -w, --workers <WORKERS>",
    "      --fixtures <DIR>     Replay recorded responses from DIR", "",
    "Options of validate:",
    "      --catalog <DIR>      required", "",
    "  -v, --verbose  -h, --help  -V, --version"]

def usageLine : String := "error: invalid arguments, see scanner --help"

/-- The end of a command line that is no command. -/
def Stop.ending : Stop → Ending
  | .help => { exitCode := 0, lines := fun _ => helpLines }
  | .version => { exitCode := 0, lines := fun _ => [versionLine] }
  | .usage => { exitCode := 2, error := some usageLine }

/-- What a command line does. -/
def work (words : List String) (e : Surroundings) : Work :=
  match parse words with
  | .ok command => command.work e
  | .error stop => { ending := fun _ => stop.ending }

end CommandLine

end CloudAudit
