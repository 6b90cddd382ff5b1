import CloudAudit.Catalog.Directory
import CloudAudit.Client.Fixtures
import CloudAudit.Client.Rest
import CloudAudit.Config.Basic
import CloudAudit.Report.Artifact
import CloudAudit.Scan.Run

/-!
A run from its configuration to its files: the configuration is checked, every catalog must compile,
the client is set up, the scan is made, and its results are written. Nothing is asked of a vendor
and nothing is written before all that can be refused has been looked at.
-/

namespace CloudAudit

/-- What a run finds around it. -/
structure Surroundings where
  files : FileTree
  /-- Values of environment variables. -/
  environment : List (String × String) := []
  /-- How requests over the web get their answers. -/
  carrier : Rest.Prepared → Option Json := Rest.offline
  scanId : String
  host : Host
  now : Moment
  /-- What the clock shows when it is read again. -/
  clock : Nat → Moment := fun _ => now
  processors : Nat
  /-- How the patterns of filters are read. -/
  compile : String → Option (String → Bool) := Pattern.compile?

inductive RunError where
  | config (cause : ConfigError)
  | catalog (cause : CatalogError)
  | catalogsInvalid (failed total : Nat)
  | scan (cause : ScanError)
  | output (cause : OutputError)

namespace RunError

def message : RunError → String
  | config cause => cause.message
  | catalog cause => cause.message
  | catalogsInvalid failed total =>
    toString failed ++ " of " ++ toString total ++ " catalogs failed to compile"
  | scan cause => cause.message
  | output cause => cause.message

/-- Only results that cannot be written are no fault of the input. -/
def exitCode : RunError → Nat
  | output _ => 1
  | _ => 2

end RunError

namespace ClientSettings

/-- The token of a client, which must be set when its variable is named. -/
def token (settings : RestSettings) (e : Surroundings) : Except ConfigError (Option String) :=
  match settings.tokenVariable with
  | none => .ok none
  | some name => match e.environment.lookup name with
    | some value => .ok (some value)
    | none => .error (.missingToken name)

/-- Sets a client up. -/
def client (s : ClientSettings) (e : Surroundings) : Except ConfigError (Client Unit) :=
  match s with
  | fixtures directory => match Fixtures.ofDirectory e.files directory with
    | .ok f => .ok (f.client e.files)
    | .error cause => .error (.client cause.message)
  | rest settings => (token settings e).map fun token =>
    Rest.client { endpoints := settings.endpoints, token } e.carrier

end ClientSettings

/-- The catalogs of a directory, if all of them compile. -/
def CatalogBatch.required (t : FileTree) (directory : String) : Except RunError (List Catalog) :=
  match CatalogBatch.ofDirectory t directory with
  | .error cause => .error (.catalog cause)
  | .ok b =>
    if b.isClean then .ok b.catalogs else .error (.catalogsInvalid b.failed.length b.fileCount)

/-- A scan that is ready to start. -/
structure ReadyScan where
  config : ScanConfig
  catalogs : List Catalog
  client : Client Unit

/-- A scan and where its results are. -/
structure RunOutcome where
  report : ScanReport
  directory : String

/-- All that a run does. -/
structure RunResult where
  outcome : Except RunError RunOutcome
  /-- Calls of the client, in order. -/
  calls : List VendorCall
  files : FileTree

namespace RunConfig

/-- Makes a scan ready: settings, filters, client settings, catalogs, client, in this order. -/
def prepare (c : RunConfig) (e : Surroundings) : Except RunError ReadyScan := do
  match c.defect? with
  | some cause => .error (.config cause)
  | none =>
    let config ← (c.scanConfig e.processors e.compile).mapError fun cause =>
      .config (.invalidFilter cause)
    let settings ← match c.client with
      | some settings => .ok settings
      | none => .error (.config .missingClient)
    let directory ← c.requiredCatalogDir.mapError .config
    let catalogs ← CatalogBatch.required e.files directory
    let client ← (settings.client e).mapError .config
    pure { config, catalogs, client }

/-- Makes the scan, and gives the calls of its client. -/
def scan (c : RunConfig) (e : Surroundings) (cancelled : Bool) :
    Except RunError ScanReport × List VendorCall :=
  match c.prepare e with
  | .error cause => (.error cause, [])
  | .ok ready =>
    let (result, s) := ready.config.run ready.client ready.catalogs e.scanId e.host e.now
      ⟨(), [], cancelled⟩ e.clock
    (result.mapError .scan, s.trace)

/-- Makes the scan and writes its results. -/
def run (c : RunConfig) (e : Surroundings) (cancelled : Bool) : RunResult :=
  match c.scan e cancelled with
  | (.error cause, calls) => ⟨.error cause, calls, e.files⟩
  | (.ok report, calls) => match report.store c.resultDir e.files with
    | (files, none) => ⟨.ok ⟨report, report.directory c.resultDir⟩, calls, files⟩
    | (files, some cause) => ⟨.error (.output cause), calls, files⟩

end RunConfig

end CloudAudit
