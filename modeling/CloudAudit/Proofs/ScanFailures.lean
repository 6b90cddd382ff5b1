import CloudAudit.Proofs.CheckRows
import CloudAudit.Proofs.PoolSchedule

set_option autoImplicit false

/- Units that end in error. One that came back with a report of its own skips each of
its checks; one that was lost with its worker, or never taken, says nothing of them. -/
namespace CloudAudit

theorem StatusCounts.ofResults_of_skip {rows : List CheckResult}
    (skips : ∀ row ∈ rows, row.status = .skip) : ofResults rows = { skip := rows.length } := by
  have from_count : ∀ c : StatusCounts, rows.foldl (fun c r => c.record r.status) c =
      { c with skip := c.skip + rows.length } := by
    induction rows with
    | nil => intro c; rfl
    | cons row rest ih =>
      intro c
      obtain ⟨here, others⟩ := List.forall_mem_cons.mp skips
      rw [List.foldl_cons, ih others, here, record, List.length_cons]
      simp only [StatusCounts.mk.injEq, true_and, and_true]
      omega
  rw [ofResults, from_count]
  simp

theorem ScanConfig.catalog_of_matrix {config : ScanConfig} {catalogs : List Catalog}
    {u : PlannedUnit} (member : u ∈ config.matrix catalogs) : u.catalog ∈ catalogs := by
  obtain ⟨_, _, member⟩ := List.mem_flatMap.mp member
  obtain ⟨k, selected, member⟩ := List.mem_flatMap.mp member
  obtain ⟨_, _, rfl⟩ := List.mem_map.mp member
  rw [ScanConfig.selected, List.mem_mergeSort] at selected
  exact (List.mem_filter.mp selected).1

namespace PlannedUnit

variable {u : PlannedUnit} {start finish : Moment} {cache : Cache}

/-- A report in error has nothing that was emitted. -/
theorem not_emitted_of_error (failed : (u.report start finish cache).status = .error) :
    ∀ id ∈ u.catalog.plan.order, ∀ r, cache.get? id = some r → r.status ≠ .emitted := by
  intro id listed r known emitted
  have found : ((u.catalog.plan.order.filterMap cache.get?).any (·.isEmitted)) = true := by
    rw [List.any_eq_true]
    exact ⟨r, List.mem_filterMap.mpr ⟨id, listed, known⟩, by simpa [DiscoveryResult.isEmitted]⟩
  simp [report, unitFailure?, found] at failed

/-- A report in error has a skip for each check, whatever the results it is made of. -/
theorem skips_of_error {doc : Document} (compiled : doc.compile = .ok u.catalog)
    (failed : (u.report start finish cache).status = .error) :
    List.Forall₂ Check.SkipRow u.catalog.checks (u.report start finish cache).checks := by
  have single : ∀ check ∈ u.catalog.checks,
      check.run cache = [.skip check (Check.skipDetail (cache.get? check.forEach))] := by
    intro check member
    have listed : check.forEach ∈ u.catalog.plan.order :=
      (Catalog.planned_of_compile compiled).mem_order.mpr
        (Catalog.exists_discovery compiled member)
    exact Check.run_of_not_emitted (not_emitted_of_error failed check.forEach listed)
  have rows : (u.report start finish cache).checks = u.catalog.checks.map fun check =>
      .skip check (Check.skipDetail (cache.get? check.forEach)) :=
    (List.flatMap_congr single).trans List.map_eq_flatMap.symm
  rw [rows, List.forall₂_map_right_iff, List.forall₂_same]
  exact fun check _ => Check.skip_row check _

end PlannedUnit

/-- What an entry in error says of the checks of its unit, by whether the unit came back. -/
structure FailedEntry (u : PlannedUnit) (returned : Prop) (entry : UnitReport) : Prop where
  skips : returned → List.Forall₂ Check.SkipRow u.catalog.checks entry.checks
  lost : ¬returned → entry.checks = [] ∧
    (entry.error = some crashedText ∨ entry.error = some abandonedText)
  counts : entry.counts = { skip := entry.checks.length }

theorem FailedEntry.of_report {u : PlannedUnit} {doc : Document}
    (compiled : doc.compile = .ok u.catalog) {returned : Prop} (came : returned)
    {start finish : Moment} {cache : Cache}
    (failed : (u.report start finish cache).status = .error) :
    FailedEntry u returned (u.report start finish cache) := by
  have skips := u.skips_of_error compiled failed
  refine ⟨fun _ => skips, absurd came, StatusCounts.ofResults_of_skip fun row member => ?_⟩
  obtain ⟨check, _, skip⟩ := exists_of_forall₂ skips member
  exact skip.status

theorem FailedEntry.of_failed (u : PlannedUnit) {returned : Prop} (gone : ¬returned)
    {text : String} (told : text = crashedText ∨ text = abandonedText) :
    FailedEntry u returned (.failed u.unit u.catalog.provider text) := by
  refine ⟨fun came => absurd came gone, fun _ => ⟨rfl, ?_⟩, rfl⟩
  rcases told with rfl | rfl
  · exact .inl rfl
  · exact .inr rfl

/-- Every interleaving of a scan of compiled catalogs leaves each entry in error with one
skip for each check of its unit, in order, where the unit came back. Where it was lost
with its worker, or never taken, the entry has no row and counts none. -/
theorem error_entries_skip (config : ScanConfig) {catalogs : List Catalog}
    (compiled : ∀ c ∈ catalogs, ∃ doc : Document, doc.compile = .ok c) {workers : Nat}
    {ms : List (Move UnitReport)} {p : Pool UnitReport}
    (run : Interleaving (config.matrix catalogs) workers ms p) (i : Nat) (u : PlannedUnit)
    (present : (config.matrix catalogs)[i]? = some u) :
    ∃ entry, (entries (config.matrix catalogs) p)[i]? = some entry ∧
      (entry.status = .error → FailedEntry u
        (∃ r, (i, some r) ∈
          (Pool.start (config.matrix catalogs).length workers).outcomes ms) entry) := by
  have inv := run.invariant
  have accounts := run.accounts present
  refine ⟨_, by rw [entries_getElem?, present, Option.map_some], fun failed => ?_⟩
  obtain ⟨doc, compiled⟩ := compiled _ (ScanConfig.catalog_of_matrix (List.mem_of_getElem? present))
  by_cases gone : i ∈ (Pool.start (config.matrix catalogs).length workers).taken ms
  · by_cases lost : (i, none) ∈ (Pool.start (config.matrix catalogs).length workers).outcomes ms
    · rw [accounts.crashed_iff.mpr ⟨gone, lost⟩]
      refine .of_failed u ?_ (.inl rfl)
      rintro ⟨r, ran⟩
      cases inv.outcome_unique run.ended ran lost
    · obtain ⟨r, ran, same⟩ := accounts.own_iff.mpr ⟨gone, lost⟩
      obtain ⟨_, _, cache, rfl⟩ := run.own i (some r) ran u present
      rw [same] at failed ⊢
      exact .of_report compiled ⟨_, ran⟩ failed
  · have entry := accounts.untaken gone
    cases stop : p.cancelled with
    | true =>
      rw [entry, stop] at failed
      cases failed
    | false =>
      rw [entry, stop]
      refine .of_failed u ?_ (.inr rfl)
      rintro ⟨r, ran⟩
      exact gone ((inv.mem_taken run.ended).mpr ⟨_, ran⟩)

/-- Keys with two checks on them. -/
def keyringDocument : Document :=
  { provider := "north", service := "vault", discovery := [Catalog.listing "keys" none []],
    checks := [
      { checkId := "keys-fresh", forEach := "keys"
        conditions := [Catalog.fieldEntry "fresh" "yes"] },
      { checkId := "keys-owned", forEach := "keys"
        conditions := [Catalog.fieldEntry "owned" "yes"] }] }

def keyring : Catalog :=
  { provider := "north", service := "vault", coverage := .regional, version := none,
    discoveries := [Catalog.lister "keys" none []]
    checks := [
      ⟨"keys-fresh", "keys-fresh", .medium, "keys", .every, [Catalog.fieldIs "fresh" "yes"]⟩,
      ⟨"keys-owned", "keys-owned", .medium, "keys", .every, [Catalog.fieldIs "owned" "yes"]⟩]
    plan := ⟨[["keys"]]⟩ }

theorem keyring_compiled : keyringDocument.compile = .ok keyring := by
  have planned : Plan.build (keyringDocument.discovery.map Document.dependency) =
      .ok keyring.plan := by cbv
  unfold Document.compile
  rw [planned]
  rfl

/-- A scan of three regions with one worker. -/
def keyringScan : ScanConfig :=
  { accounts := ["main"], regions := ["east", "north", "west"], workers := 1 }

/-- Keys must not be listed in the first region; asking in another one is a crash. -/
def brittle : Client Unit :=
  ⟨"brittle", fun call _ =>
    (⟨if call.request.region = "east" then some (.error (.fatal "list_keys" "forbidden")) else none,
      false⟩, ())⟩

/-- A clock that is read four times a second. -/
def ticking (reading : Nat) : Moment := ⟨250 * reading⟩

def keyringUnits : List UnitReport :=
  (runUnits brittle keyringScan ticking (keyringScan.matrix [keyring]) ⟨(), [], false⟩).1

/-- The worker reports the first unit, is lost with the second and never takes the third:
all three end in error, and only the first one says that its checks were skipped. -/
theorem keyringScan_entries :
    (∀ c ∈ [keyring], ∃ doc : Document, doc.compile = .ok c) ∧
    ∃ ms p, Interleaving (keyringScan.matrix [keyring]) 1 ms p ∧
      keyringUnits = entries (keyringScan.matrix [keyring]) p ∧
      (∀ i u, (keyringScan.matrix [keyring])[i]? = some u → ∃ entry, keyringUnits[i]? = some entry ∧
        (entry.status = .error →
          FailedEntry u (∃ r, (i, some r) ∈ (Pool.start 3 1).outcomes ms) entry)) ∧
      keyringUnits.map (fun entry => (entry.status, entry.checks.map (·.status))) =
        [(.error, [.skip, .skip]), (.error, []), (.error, [])] := by
  have compiled : ∀ c ∈ [keyring], ∃ doc : Document, doc.compile = .ok c := by
    intro c member
    obtain rfl := List.mem_singleton.mp member
    exact ⟨keyringDocument, keyring_compiled⟩
  have counted : (keyringScan.matrix [keyring]).length = 3 := by decide +kernel
  obtain ⟨ms, p, run, same⟩ := runUnits_interleaving brittle keyringScan ticking
    (keyringScan.matrix [keyring]) ⟨(), [], false⟩
  rw [counted] at run
  refine ⟨compiled, ms, p, run, same, fun i u present => ?_, by decide +kernel⟩
  have told := error_entries_skip keyringScan compiled run i u present
  rw [counted] at told
  rw [show keyringUnits = _ from same]
  exact told

/-- A unit in error may say nothing of its checks. -/
theorem keyringScan_loses_checks :
    keyringDocument.compile = .ok keyring ∧
    ∃ report t, keyringScan.run brittle [keyring] "scan" default ⟨0⟩ ⟨(), [], false⟩ ticking =
        (.ok report, t) ∧
      ¬∀ entry ∈ report.units, entry.status = .error →
        List.Forall₂ Check.SkipRow keyring.checks entry.checks := by
  have told : (keyringUnits.map fun entry => (entry.status, entry.checks.length))[1]? =
      some (.error, 0) := by decide +kernel
  rw [List.getElem?_map] at told
  obtain ⟨entry, here, shown⟩ := Option.map_eq_some_iff.mp told
  have started : (keyringScan.matrix [keyring]).isEmpty = false := by decide +kernel
  have ran : keyringScan.run brittle [keyring] "scan" default ⟨0⟩ ⟨(), [], false⟩ ticking =
      (.ok ⟨"scan", ⟨0⟩, ticking (2 * (keyringScan.matrix [keyring]).length), default,
          keyringUnits⟩,
        (runUnits brittle keyringScan ticking (keyringScan.matrix [keyring])
          ⟨(), [], false⟩).2) := by
    simp only [ScanConfig.run, started, Bool.false_eq_true, ↓reduceIte, keyringUnits]
  refine ⟨keyring_compiled, _, _, ran, fun agree => ?_⟩
  have skips := agree entry (List.mem_of_getElem? here) (congrArg Prod.fst shown)
  have none_left : entry.checks.length = 0 := congrArg Prod.snd shown
  have all : keyring.checks.length = 0 := skips.length_eq.trans none_left
  exact absurd all (by decide)

end CloudAudit
