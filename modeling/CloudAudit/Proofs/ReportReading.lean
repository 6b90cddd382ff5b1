import CloudAudit.Proofs.Success
import CloudAudit.Report.Artifact

set_option autoImplicit false

/- What the index and the summary of a scan say, read back from their JSON. A record is read by the
names that its fields have in the files, and not by the way in which it was written. -/
namespace CloudAudit

namespace Json

/-- Reads the field at a key. -/
def field? {α : Type} (v : Json) (key : String) (read : Json → Option α) : Option α :=
  (v.get? key).bind read

def natural? : Json → Option Nat
  | .number (.integer (.ofNat n)) => some n
  | _ => none

/-- A text, or null in its place. -/
def textOrNull? : Json → Option (Option String)
  | .null => some none
  | .string s => some (some s)
  | _ => none

def listOf? {α : Type} (read : Json → Option α) (v : Json) : Option (List α) :=
  v.asArray?.bind fun items => items.mapM read

/-- A number under its name. -/
def count? (field : String × Json) : Option (String × Nat) :=
  field.2.natural?.map fun n => (field.1, n)

/-- Numbers under their names, in order. -/
def counts? (v : Json) : Option (List (String × Nat)) :=
  v.asObject?.bind fun fields => fields.mapM count?

theorem undoes_texts : Undoes (listOf? asString?) ofStrings := by
  have text : Undoes asString? string := fun _ => rfl
  exact text.mapM

theorem undoes_counts :
    Undoes counts? fun pairs => .object (pairs.map fun (k, n) => (k, nat n)) := by
  have count : Undoes count? fun (k, n) => (k, nat n) := fun _ => rfl
  exact count.mapM

end Json

def StatusCounts.ofJson? (v : Json) : Option StatusCounts := do
  let pass ← v.field? "pass" Json.natural?
  let fail ← v.field? "fail" Json.natural?
  let skip ← v.field? "skip" Json.natural?
  let error ← v.field? "error" Json.natural?
  some { pass, fail, skip, error }

theorem StatusCounts.undoes : Undoes ofJson? toJson := fun _ => rfl

def UnitStatus.ofJson? : Json → Option UnitStatus
  | .string "completed" => some .completed
  | .string "error" => some .error
  | .string "cancelled" => some .cancelled
  | _ => none

/-- The files of a unit: both of them are named, or none. -/
def UnitFiles.ofNames? : Option String → Option String → Option (Option UnitFiles)
  | none, none => some none
  | some checks, some inventory => some (some ⟨checks, inventory⟩)
  | _, _ => none

def IndexEntry.ofJson? (v : Json) : Option IndexEntry := do
  let account ← v.field? "account" Json.asString?
  let region ← v.field? "region" Json.asString?
  let service ← v.field? "service" Json.asString?
  let provider ← v.field? "provider" Json.asString?
  let status ← v.field? "status" UnitStatus.ofJson?
  let checks ← v.field? "checks_file" Json.textOrNull?
  let inventory ← v.field? "inventory_file" Json.textOrNull?
  let files ← UnitFiles.ofNames? checks inventory
  let counts ← v.field? "counts" StatusCounts.ofJson?
  let itemCount ← v.field? "items_discovered" Json.natural?
  let durationMs ← v.field? "duration_ms" Json.natural?
  some { unit := ⟨account, region, service⟩, provider, status, files, counts, itemCount, durationMs
         error := v.field? "error" Json.asString? }

theorem IndexEntry.undoes : Undoes ofJson? toJson := by
  intro ⟨unit, provider, status, files, counts, itemCount, durationMs, error⟩
  cases status <;> cases files <;> cases error <;> rfl

/-- What the index of a scan says of its units. -/
structure ScanIndex where
  entries : List IndexEntry
  totals : StatusCounts

def ScanIndex.ofJson? (v : Json) : Option ScanIndex := do
  let entries ← v.field? "units" (Json.listOf? IndexEntry.ofJson?)
  let totals ← v.field? "totals" StatusCounts.ofJson?
  some { entries, totals }

def ScanSummary.ofJson? (v : Json) : Option ScanSummary := do
  let scanId ← v.field? "scan_id" Json.asString?
  let totals ← v.field? "totals" StatusCounts.ofJson?
  let completed ← v.field? "units_completed" Json.natural?
  let errors ← v.field? "units_error" Json.natural?
  let cancelled ← v.field? "units_cancelled" Json.natural?
  let accounts ← v.field? "accounts" (Json.listOf? Json.asString?)
  let regions ← v.field? "regions" (Json.listOf? Json.asString?)
  let services ← v.field? "services" (Json.listOf? Json.asString?)
  let providers ← v.field? "providers" (Json.listOf? Json.asString?)
  let failuresBySeverity ← v.field? "failures_by_severity" Json.counts?
  some { scanId, totals, completed, errors, cancelled, accounts, regions, services, providers
         failuresBySeverity }

theorem ScanSummary.undoes : Undoes ofJson? toJson := by
  intro s
  have texts : ∀ key listed, s.toJson.get? key = some (Json.ofStrings listed) →
      s.toJson.field? key (Json.listOf? Json.asString?) = some listed := by
    intro key listed written
    rw [Json.field?, written, Option.bind_some, Json.undoes_texts]
  have failures : s.toJson.field? "failures_by_severity" Json.counts? =
      some s.failuresBySeverity := Json.undoes_counts s.failuresBySeverity
  simp only [ofJson?, texts "accounts" s.accounts rfl, texts "regions" s.regions rfl,
    texts "services" s.services rfl, texts "providers" s.providers rfl, failures]
  rfl

namespace ScanReport

end ScanReport

end CloudAudit
