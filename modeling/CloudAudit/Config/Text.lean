import CloudAudit.Config.Basic
import CloudAudit.Toml.Document

/-!
Reading a configuration from TOML. Unknown settings are refused, except inside the client, where
they mean nothing.
-/

namespace CloudAudit

-- Powers are core's, also where an algebra library is imported.
attribute [local instance (high)] instPowNat

namespace Toml

variable {α : Type}

/-- An entry that may be left out. -/
def optional (es : Entries) (key : String) (read : Toml → Option α) : Option (Option α) :=
  match es.lookup key with
  | none => some none
  | some v => (read v).map some

/-- An entry with a value for when it is left out. -/
def defaulted (es : Entries) (key : String) (fallback : α) (read : Toml → Option α) : Option α :=
  (optional es key read).map (·.getD fallback)

/-- An item of a list with a value for when the list is too short. -/
def itemOr (vs : List Toml) (i : Nat) (fallback : α) (read : Toml → Option α) : Option α :=
  match vs[i]? with
  | none => some fallback
  | some v => read v

def asTexts? (v : Toml) : Option (List String) := v.asItems?.bind fun vs => vs.mapM asText?

/-- Whether every key is one of some names. -/
def onlyKeys (es : Entries) (names : List String) : Bool := es.all fun e => names.contains e.1

end Toml

/-- The greatest number of 32 bits. -/
def word32Limit : Nat := 2 ^ (32 : Nat) - 1

/-- The greatest number of 64 bits. -/
def word64Limit : Nat := 2 ^ (64 : Nat) - 1

namespace RetrySettings

/-- Settings by name or in order; those left out keep their values. -/
def ofToml? (v : Toml) : Option RetrySettings :=
  let count (limit : Nat) := Toml.asCount? limit
  let standard : RetrySettings := {}
  match v.asEntries?, v.asItems? with
  | some es, _ =>
    if Toml.onlyKeys es ["max_attempts", "base_delay_ms", "max_delay_ms"] then do
      let maxAttempts ← Toml.defaulted es "max_attempts" standard.maxAttempts (count word32Limit)
      let baseDelayMs ← Toml.defaulted es "base_delay_ms" standard.baseDelayMs (count word64Limit)
      let maxDelayMs ← Toml.defaulted es "max_delay_ms" standard.maxDelayMs (count word64Limit)
      pure { maxAttempts, baseDelayMs, maxDelayMs }
    else none
  | none, some vs => do
    let maxAttempts ← Toml.itemOr vs 0 standard.maxAttempts (count word32Limit)
    let baseDelayMs ← Toml.itemOr vs 1 standard.baseDelayMs (count word64Limit)
    let maxDelayMs ← Toml.itemOr vs 2 standard.maxDelayMs (count word64Limit)
    pure { maxAttempts, baseDelayMs, maxDelayMs }
  | none, none => none

end RetrySettings

namespace ClientSettings

/-- Endpoints in ascending order of services. -/
def endpoints? (v : Toml) : Option (List (String × String)) := do
  let es ← v.asEntries?
  let pairs ← es.mapM fun (service, v) => v.asText?.map fun url => (service, url)
  pure (pairs.mergeSort fun a b => decide (a.1 ≤ b.1))

/-- The client of a kind, from its other settings by name. -/
def ofEntries? (kind : String) (es : Toml.Entries) : Option ClientSettings :=
  if kind = "fixture" then
    ((es.lookup "fixture_dir").bind Toml.asText?).map .fixtures
  else if kind = "rest" then do
    let tokenVariable ← Toml.optional es "token_env" Toml.asText?
    let timeoutSeconds ← Toml.defaulted es "timeout_secs" 30 (Toml.asCount? word64Limit)
    let endpoints ← Toml.defaulted es "endpoints" [] endpoints?
    pure (.rest { tokenVariable, timeoutSeconds, endpoints })
  else none

/-- The client of a kind, from its other settings in order. -/
def ofItems? (kind : String) (vs : List Toml) : Option ClientSettings :=
  if kind = "fixture" then match vs with
    | [v] => v.asText?.map .fixtures
    | _ => none
  else if kind = "rest" && vs.length ≤ 3 then do
    let tokenVariable ← Toml.itemOr vs 0 none fun v => v.asText?.map some
    let timeoutSeconds ← Toml.itemOr vs 1 30 (Toml.asCount? word64Limit)
    let endpoints ← Toml.itemOr vs 2 [] endpoints?
    pure (.rest { tokenVariable, timeoutSeconds, endpoints })
  else none

/-- A client: its kind stands under `kind`, or first in a list. -/
def ofToml? (v : Toml) : Option ClientSettings :=
  match v.asEntries?, v.asItems? with
  | some es, _ => ((es.lookup "kind").bind Toml.asText?).bind fun kind => ofEntries? kind es
  | none, some (kind :: others) => kind.asText?.bind fun kind => ofItems? kind others
  | none, _ => none

end ClientSettings

namespace RunConfig

def settingNames : List String :=
  ["catalog_dir", "output_dir", "accounts", "include_accounts", "exclude_accounts", "regions",
    "include_regions", "exclude_regions", "services", "exclude_services", "workers",
    "intra_unit_parallelism", "retry", "client"]

def ofEntries? (es : Toml.Entries) : Option RunConfig :=
  let texts (key : String) := Toml.defaulted es key [] Toml.asTexts?
  if Toml.onlyKeys es settingNames then do
    let catalogDir ← Toml.optional es "catalog_dir" Toml.asText?
    let outputDir ← Toml.optional es "output_dir" Toml.asText?
    let accounts ← texts "accounts"
    let includeAccounts ← texts "include_accounts"
    let excludeAccounts ← texts "exclude_accounts"
    let regions ← texts "regions"
    let includeRegions ← texts "include_regions"
    let excludeRegions ← texts "exclude_regions"
    let services ← texts "services"
    let excludeServices ← texts "exclude_services"
    let workers ← Toml.optional es "workers" (Toml.asCount? word64Limit)
    let parallelism ← Toml.optional es "intra_unit_parallelism" (Toml.asCount? word64Limit)
    let retry ← Toml.defaulted es "retry" {} RetrySettings.ofToml?
    let client ← Toml.optional es "client" ClientSettings.ofToml?
    pure { catalogDir, outputDir, accounts, includeAccounts, excludeAccounts, regions,
           includeRegions, excludeRegions, services, excludeServices, workers, parallelism,
           retry, client }
  else none

/-- Reads a configuration; `origin` says where the text is from. -/
def ofText (origin text : String) : Except ConfigError RunConfig :=
  match (Toml.parse? text).bind ofEntries? with
  | some c => .ok c
  | none => .error (.parse origin)

/-- Loads a configuration file. -/
def ofFile (t : FileTree) (location : String) : Except ConfigError RunConfig :=
  match t.readText? location with
  | some text => ofText location text
  | none => .error (.read location)

end RunConfig

end CloudAudit
