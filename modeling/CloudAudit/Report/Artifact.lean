import CloudAudit.Files.Tree
import CloudAudit.Report.Stem
import CloudAudit.Report.Summary

/-!
The files of a scan: for each unit that was started its checks and its inventory, then an index and
a summary. They stand in a directory of their own, named by the scan.
-/

namespace CloudAudit

/-- A file with a JSON document. -/
structure Artifact where
  name : String
  content : Json

/-- Names of the two files of a unit. -/
structure UnitFiles where
  checks : String
  inventory : String
  deriving DecidableEq, Repr

def UnitFiles.ofStem (stem : String) : UnitFiles :=
  ⟨"checks_" ++ stem ++ ".json", "inventory_" ++ stem ++ ".json"⟩

/-- One line of the index. -/
structure IndexEntry where
  unit : ScanUnit
  provider : String
  status : UnitStatus
  /-- Absent for a unit that was never started. -/
  files : Option UnitFiles
  counts : StatusCounts
  itemCount : Nat
  durationMs : Nat
  error : Option String

namespace IndexEntry

def ofReport (u : UnitReport) (files : Option UnitFiles) : IndexEntry :=
  { unit := u.unit, provider := u.provider, status := u.status, files, counts := u.counts,
    itemCount := u.itemCount, durationMs := u.durationMs, error := u.error }

def toJson (e : IndexEntry) : Json :=
  .object ([("account", .string e.unit.account), ("region", .string e.unit.region),
    ("service", .string e.unit.service), ("provider", .string e.provider),
    ("status", .string e.status.name), ("checks_file", Json.ofOption (e.files.map (·.checks))),
    ("inventory_file", Json.ofOption (e.files.map (·.inventory))), ("counts", e.counts.toJson),
    ("items_discovered", Json.nat e.itemCount), ("duration_ms", Json.nat e.durationMs)] ++
    (e.error.map fun m => ("error", Json.string m)).toList)

end IndexEntry

/-- Coordinates of a unit as the first fields of its files. -/
def ScanUnit.header (scanId : String) (u : ScanUnit) : Fields :=
  [("scan_id", .string scanId), ("account", .string u.account), ("region", .string u.region),
    ("service", .string u.service)]

namespace UnitReport

def checksJson (scanId : String) (u : UnitReport) : Json :=
  .object (u.unit.header scanId ++ [("provider", .string u.provider),
    ("status", .string u.status.name), ("counts", u.counts.toJson)] ++
    (u.error.map fun m => ("error", Json.string m)).toList ++
    [("results", .array (u.checks.map CheckResult.toJson))])

def inventoryJson (scanId : String) (u : UnitReport) : Json :=
  .object (u.unit.header scanId ++
    [("discoveries", .array (u.discoveries.map DiscoveryResult.toJson))])

def artifacts (scanId : String) (u : UnitReport) (files : UnitFiles) : List Artifact :=
  [⟨files.checks, u.checksJson scanId⟩, ⟨files.inventory, u.inventoryJson scanId⟩]

end UnitReport

/-- Units with their files, given the stems in use; a unit that was never started has none. -/
def withFiles (used : List String) : List UnitReport → List (UnitReport × Option UnitFiles)
  | [] => []
  | u :: rest =>
    if u.status = .cancelled then (u, none) :: withFiles used rest
    else
      let stem := Stem.fresh used u.unit.stem
      (u, some (.ofStem stem)) :: withFiles (stem :: used) rest

/-- Why the files of a scan cannot be written. -/
inductive OutputError where
  | createDirectory (path : String)
  | write (path : String)
  deriving DecidableEq, Repr

namespace OutputError

/-- What it means that a step cannot be taken. -/
def ofStep : FileStep → OutputError
  | .makeDirectory location => createDirectory location
  | .write location _ => write location

def message : OutputError → String
  | createDirectory path => "Failed to create output directory '" ++ path ++ "'"
  | write path => "Failed to write '" ++ path ++ "'"

end OutputError

namespace ScanReport

def indexName : String := "index.json"

def summaryName : String := "summary.json"

def unitsWithFiles (r : ScanReport) : List (UnitReport × Option UnitFiles) := withFiles [] r.units

def index (r : ScanReport) : List IndexEntry :=
  r.unitsWithFiles.map fun (u, files) => .ofReport u files

def indexJson (r : ScanReport) : Json :=
  .object [("scan_id", .string r.scanId), ("started_at", .string r.startedAt.render),
    ("finished_at", .string r.finishedAt.render), ("duration_ms", Json.nat r.durationMs),
    ("host", r.host.toJson), ("units", .array (r.index.map IndexEntry.toJson)),
    ("totals", r.totals.toJson)]

/-- All files of a scan in the order they are written. -/
def artifacts (r : ScanReport) : List Artifact :=
  (r.unitsWithFiles.flatMap fun (u, files) => match files with
    | some files => u.artifacts r.scanId files
    | none => []) ++
  [⟨indexName, r.indexJson⟩, ⟨summaryName, r.summary.toJson⟩]

/-- Directory of a scan. -/
def directory (r : ScanReport) (outputDir : String) : String := Location.join outputDir r.scanId

/-- How a scan is written below an output directory. -/
def steps (r : ScanReport) (outputDir : String) : List FileStep :=
  let directory := r.directory outputDir
  .makeDirectory directory ::
    r.artifacts.map fun a => .write (Location.join directory a.name) a.content.pretty

/-- Writes a scan below an output directory. -/
def store (r : ScanReport) (outputDir : String) (t : FileTree) : FileTree × Option OutputError :=
  let (t, failed) := FileTree.perform (r.steps outputDir) t
  (t, failed.map .ofStep)

end ScanReport

end CloudAudit
