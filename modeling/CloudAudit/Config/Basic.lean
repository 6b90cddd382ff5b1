import CloudAudit.Files.Tree
import CloudAudit.Scan.Matrix

/-!
Configuration of a run: what is audited, where catalogs and results are, and which client answers.
Values from the command line replace those of a file, and everything is checked before a run.
-/

namespace CloudAudit

structure RetrySettings where
  maxAttempts : Nat := 4
  baseDelayMs : Nat := 250
  maxDelayMs : Nat := 5000
  deriving DecidableEq, Repr, Inhabited

def RetrySettings.toConfig (s : RetrySettings) : RetryConfig :=
  ⟨s.maxAttempts, Duration.ofMillis s.baseDelayMs, Duration.ofMillis s.maxDelayMs⟩

/-- How to ask over the web. -/
structure RestSettings where
  /-- Name of the environment variable with the token. -/
  tokenVariable : Option String := none
  timeoutSeconds : Nat := 30
  /-- Endpoints by service, in ascending order of services. -/
  endpoints : List (String × String) := []
  deriving DecidableEq, Repr, Inhabited

inductive ClientSettings where
  /-- Recorded answers below a directory. -/
  | fixtures (directory : String)
  | rest (settings : RestSettings)
  deriving DecidableEq, Repr

structure RunConfig where
  catalogDir : Option String := none
  outputDir : Option String := none
  accounts : List String := []
  includeAccounts : List String := []
  excludeAccounts : List String := []
  regions : List String := []
  includeRegions : List String := []
  excludeRegions : List String := []
  services : List String := []
  excludeServices : List String := []
  workers : Option Nat := none
  parallelism : Option Nat := none
  retry : RetrySettings := {}
  client : Option ClientSettings := none
  deriving Repr, Inhabited

/-- Values given on the command line; none and an empty list replace nothing. -/
structure Overrides where
  catalogDir : Option String := none
  outputDir : Option String := none
  accounts : List String := []
  regions : List String := []
  services : List String := []
  workers : Option Nat := none
  fixtureDir : Option String := none
  deriving DecidableEq, Repr, Inhabited

/-- A setting that no run can have. -/
inductive BadSetting where
  | noCatalogDir
  | noAccounts
  /-- A count that must not be zero. -/
  | zero (setting : String)
  | delaysOutOfOrder (base most : Nat)
  | noEndpoints
  deriving DecidableEq, Repr

namespace BadSetting

/-- Name of the setting. -/
def setting : BadSetting → String
  | noCatalogDir => "catalog_dir"
  | noAccounts => "accounts"
  | zero setting => setting
  | delaysOutOfOrder .. => "retry.base_delay_ms"
  | noEndpoints => "client.endpoints"

def reason : BadSetting → String
  | noCatalogDir => "a catalog directory is required"
  | noAccounts => "at least one account is required"
  | zero _ => "must be at least 1"
  | delaysOutOfOrder base most =>
    toString base ++ " exceeds retry.max_delay_ms (" ++ toString most ++ ")"
  | noEndpoints => "at least one service endpoint is required"

def message (b : BadSetting) : String :=
  "Invalid value for '" ++ b.setting ++ "': " ++ b.reason

end BadSetting

inductive ConfigError where
  | read (location : String)
  | parse (origin : String)
  | invalid (cause : BadSetting)
  | missingClient
  | missingToken (name : String)
  /-- The client cannot be set up. -/
  | client (reason : String)
  | invalidFilter (cause : InvalidFilter)
  deriving DecidableEq, Repr

namespace ConfigError

def message : ConfigError → String
  | read location => "Failed to read config '" ++ location ++ "'"
  | parse origin => "Failed to parse config '" ++ origin ++ "'"
  | invalid cause => cause.message
  | missingClient =>
    "No vendor client configured: set [client] in the config file or pass --fixtures"
  | missingToken name => "Environment variable '" ++ name ++ "' holding the API token is not set"
  | client reason => "Failed to build vendor client: " ++ reason
  | invalidFilter cause => cause.message

end ConfigError

namespace RunConfig

/-- Where results go unless a configuration says otherwise. -/
def defaultOutputDir : String := "scan_output"

/-- How many workers a run has at most unless a configuration says otherwise. -/
def maxDefaultWorkers : Nat := 8

/-- A list with its replacement, if that is not empty. -/
def replaced (old new : List String) : List String := if new.isEmpty then old else new

/-- The configuration with values of the command line in place of its own. -/
def override (c : RunConfig) (o : Overrides) : RunConfig :=
  { c with
    catalogDir := o.catalogDir.or c.catalogDir
    outputDir := o.outputDir.or c.outputDir
    accounts := replaced c.accounts o.accounts
    regions := replaced c.regions o.regions
    services := replaced c.services o.services
    workers := o.workers.or c.workers
    client := (o.fixtureDir.map .fixtures).or c.client }

/-- The first thing wrong with a configuration, if there is one. -/
def defect? (c : RunConfig) : Option ConfigError :=
  if c.catalogDir.isNone then some (.invalid .noCatalogDir)
  else if c.accounts.isEmpty then some (.invalid .noAccounts)
  else if c.workers = some 0 then some (.invalid (.zero "workers"))
  else if c.parallelism = some 0 then some (.invalid (.zero "intra_unit_parallelism"))
  else if c.retry.maxAttempts = 0 then some (.invalid (.zero "retry.max_attempts"))
  else if c.retry.maxDelayMs < c.retry.baseDelayMs then
    some (.invalid (.delaysOutOfOrder c.retry.baseDelayMs c.retry.maxDelayMs))
  else match c.client with
    | none => some .missingClient
    | some (.rest settings) =>
      if settings.endpoints.isEmpty then some (.invalid .noEndpoints) else none
    | some (.fixtures _) => none

/-- The directory of catalogs, which must be set. -/
def requiredCatalogDir (c : RunConfig) : Except ConfigError String :=
  match c.catalogDir with
  | some d => .ok d
  | none => .error (.invalid .noCatalogDir)

def resultDir (c : RunConfig) : String := c.outputDir.getD defaultOutputDir

/--
What the scan covers; `processors` bounds the workers when their number is not set, and `compile`
reads the patterns of filters.
-/
def scanConfig (c : RunConfig) (processors : Nat)
    (compile : String → Option (String → Bool) := Pattern.compile?) :
    Except InvalidFilter ScanConfig := do
  let accountFilter ← NameFilter.read "account" c.includeAccounts c.excludeAccounts compile
  let regionFilter ← NameFilter.read "region" c.includeRegions c.excludeRegions compile
  pure { accounts := c.accounts, accountFilter, regions := c.regions, regionFilter
         services := c.services, excludeServices := c.excludeServices
         workers := c.workers.getD (min processors maxDefaultWorkers)
         parallelism := c.parallelism.getD 1, retry := c.retry.toConfig }

end RunConfig

end CloudAudit
