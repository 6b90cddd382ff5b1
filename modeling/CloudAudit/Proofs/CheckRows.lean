import CloudAudit.Proofs.CatalogChecks
import CloudAudit.Proofs.DiscoveryCache
import CloudAudit.Scan.Unit

set_option autoImplicit false

/- The rows of the checks of a catalog. Where a discovery emitted, each item has a
verdict that its own outcomes bear out, and each failed iteration has a row too;
where it did not, a single row says that the check was skipped. -/
namespace CloudAudit

namespace StatusCounts

theorem total_record (c : StatusCounts) (status : CheckStatus) :
    (c.record status).total = c.total + 1 := by
  cases status <;> simp only [record, total] <;> omega

/-- Every row is counted once. -/
theorem total_ofResults (rows : List CheckResult) : (ofResults rows).total = rows.length := by
  have from_count : ∀ c : StatusCounts,
      (rows.foldl (fun c r => c.record r.status) c).total = c.total + rows.length := by
    induction rows with
    | nil => intro c; rfl
    | cons row rest ih =>
      intro c
      rw [List.foldl_cons, ih, total_record, List.length_cons]
      omega
  rw [ofResults, from_count, show ({} : StatusCounts).total = 0 from rfl, Nat.zero_add]

end StatusCounts

namespace Check

/-- The row of an item has one outcome for each condition. They decide the verdict, and
one of them bears it out. -/
structure ItemRow (check : Check) (id : String) (item : Item) (row : CheckResult) : Prop where
  head : (row.checkId, row.title, row.severity) = (check.checkId, check.title, check.severity)
  resource : row.resourceId = some id
  conditions : row.conditions = check.conditions.map fun k => k.outcome item
  status : row.status = .pass ∨ row.status = .fail
  every : check.logic = .every →
    (row.status = .pass ↔ ∀ o ∈ row.conditions, o.passed = true)
  any : check.logic = .any → (row.status = .pass ↔ ∃ o ∈ row.conditions, o.passed = true)
  backed : row.status = .pass → ∃ o ∈ row.conditions, o.passed = true
  refuted : row.status = .fail → ∃ o ∈ row.conditions, o.passed = false
  detail : row.status = .fail → row.detail = "conditions not satisfied: " ++
    String.intercalate ", " ((row.conditions.filter fun o => !o.passed).map (·.path))

/-- The row of a failed iteration. -/
structure FailureRow (check : Check) (f : IterationFailure) (row : CheckResult) : Prop where
  head : (row.checkId, row.title, row.severity) = (check.checkId, check.title, check.severity)
  resource : row.resourceId = f.parentResourceId
  status : row.status = .error
  detail : row.detail = "discovery iteration failed: " ++ f.error
  conditions : row.conditions = []

/-- The row of a check that has nothing to look at. -/
structure SkipRow (check : Check) (row : CheckResult) : Prop where
  head : (row.checkId, row.title, row.severity) = (check.checkId, check.title, check.severity)
  resource : row.resourceId = none
  status : row.status = .skip
  conditions : row.conditions = []

section

variable {check : Check} {outcomes : List ConditionOutcome}

/-- A check that holds has an outcome that passed, one that does not has one that failed. -/
theorem exists_outcome (filled : outcomes ≠ []) (l : Logic) :
    ∃ o ∈ outcomes, o.passed = l.holds outcomes := by
  obtain ⟨first, member⟩ := List.exists_mem_of_ne_nil outcomes filled
  cases l with
  | every =>
    simp only [Logic.holds]
    cases verdict : outcomes.all (·.passed) with
    | true => exact ⟨first, member, List.all_eq_true.mp verdict first member⟩
    | false =>
      obtain ⟨o, inside, failed⟩ := List.all_eq_false.mp verdict
      exact ⟨o, inside, by simpa using failed⟩
  | any =>
    simp only [Logic.holds]
    cases verdict : outcomes.any (·.passed) with
    | true =>
      obtain ⟨o, inside, passed⟩ := List.any_eq_true.mp verdict
      exact ⟨o, inside, passed⟩
    | false => exact ⟨first, member, by simpa using List.any_eq_false.mp verdict first member⟩

theorem evaluateItem_row (filled : check.conditions ≠ []) (id : String) (item : Item) :
    ItemRow check id item (check.evaluateItem id item) := by
  have same : (check.evaluateItem id item).conditions =
      check.conditions.map fun k => k.outcome item := rfl
  have decided : (check.evaluateItem id item).status =
      if check.logic.holds (check.evaluateItem id item).conditions then .pass else .fail := rfl
  have passes : (check.evaluateItem id item).status = .pass ↔
      check.logic.holds (check.evaluateItem id item).conditions = true := by
    rw [decided]
    cases check.logic.holds (check.evaluateItem id item).conditions with
    | true => decide
    | false => decide
  have fails : (check.evaluateItem id item).status = .fail ↔
      check.logic.holds (check.evaluateItem id item).conditions = false := by
    rw [decided]
    cases check.logic.holds (check.evaluateItem id item).conditions with
    | true => decide
    | false => decide
  obtain ⟨o, member, bears_out⟩ : ∃ o ∈ (check.evaluateItem id item).conditions,
      o.passed = check.logic.holds (check.evaluateItem id item).conditions :=
    exists_outcome (by simpa [same] using filled) check.logic
  refine ⟨rfl, rfl, same, ?_, ?_, ?_, ?_, ?_, ?_⟩
  · rw [passes, fails]
    exact (Bool.eq_false_or_eq_true _)
  · intro logic
    rw [passes, logic, Logic.holds, List.all_eq_true]
  · intro logic
    rw [passes, logic, Logic.holds, List.any_eq_true]
  · intro passed
    exact ⟨o, member, bears_out.trans (passes.mp passed)⟩
  · intro failed
    exact ⟨o, member, bears_out.trans (fails.mp failed)⟩
  · intro failed
    have told : (check.evaluateItem id item).detail =
        if check.logic.holds (check.evaluateItem id item).conditions then CheckResult.passedDetail
        else CheckResult.failedDetail (check.evaluateItem id item).conditions := rfl
    rw [told, fails.mp failed]
    rfl

theorem failureRow_row (check : Check) (f : IterationFailure) :
    FailureRow check f (check.failureRow f) := ⟨rfl, rfl, rfl, rfl, rfl⟩

theorem skip_row (check : Check) (detail : String) : SkipRow check (.skip check detail) :=
  ⟨rfl, rfl, rfl, rfl⟩

end

/-- The rows of a check, read off the result it looks at. -/
inductive RowsOf (cache : Cache) (check : Check) : List CheckResult → Prop
  /-- One verdict for each item, with the id of its position, then one row for each failure. -/
  | emitted {r : DiscoveryResult} {verdicts errors : List CheckResult}
      (known : cache.get? check.forEach = some r) (status : r.status = .emitted)
      (aligned : r.resourceIds.length = r.items.length)
      (counted : verdicts.length = r.items.length)
      (verdict : ∀ (i : Nat) item, r.items[i]? = some item → ∃ id row,
        r.resourceIds[i]? = some id ∧ verdicts[i]? = some row ∧ ItemRow check id item row)
      (failed : List.Forall₂ (FailureRow check) r.failures errors) :
      RowsOf cache check (verdicts ++ errors)
  | skipped {r : DiscoveryResult} {row : CheckResult} (known : cache.get? check.forEach = some r)
      (status : r.status ≠ .emitted) (skips : SkipRow check row) : RowsOf cache check [row]

variable {cache : Cache} {check : Check} {r : DiscoveryResult}

theorem run_of_emitted (known : cache.get? check.forEach = some r) (emitted : r.status = .emitted) :
    check.run cache =
      (r.pairs.map fun (id, item) => check.evaluateItem id item) ++
        r.failures.map check.failureRow := by
  have usable : (cache.get? check.forEach).filter (·.isEmitted) = some r := by
    rw [known, Option.filter_some, DiscoveryResult.isEmitted, if_pos (by simpa using emitted)]
  simp only [run, usable]

theorem run_of_not_emitted (other : ∀ r, cache.get? check.forEach = some r → r.status ≠ .emitted) :
    check.run cache = [.skip check (skipDetail (cache.get? check.forEach))] := by
  have nothing : (cache.get? check.forEach).filter (·.isEmitted) = none := by
    rw [Option.filter_eq_none_iff]
    intro r known
    simpa [DiscoveryResult.isEmitted] using other r known
  simp only [run, nothing]

/-- A check has the rows of the result it looks at, when that result is there and its
items have their ids. -/
theorem run_rows (filled : check.conditions ≠ []) (known : cache.get? check.forEach = some r)
    (aligned : r.resourceIds.length = r.items.length) : RowsOf cache check (check.run cache) := by
  by_cases emitted : r.status = .emitted
  · rw [run_of_emitted known emitted]
    refine .emitted known emitted aligned ?_ ?_ ?_
    · rw [List.length_map, DiscoveryResult.pairs, List.length_zip, aligned, Nat.min_self]
    · intro i item here
      have listed : i < r.resourceIds.length := by
        rw [aligned]
        exact (List.getElem?_eq_some_iff.mp here).1
      have id := List.getElem?_eq_getElem listed
      refine ⟨_, _, id, ?_, evaluateItem_row filled r.resourceIds[i] item⟩
      have pair : r.pairs[i]? = some (r.resourceIds[i], item) :=
        List.getElem?_zip_eq_some.mpr ⟨id, here⟩
      rw [List.getElem?_map, pair, Option.map_some]
    · rw [List.forall₂_map_right_iff, List.forall₂_same]
      exact fun f _ => failureRow_row check f
  · have other : ∀ q, cache.get? check.forEach = some q → q.status ≠ .emitted :=
      fun q found => Option.some.inj (known.symm.trans found) ▸ emitted
    rw [run_of_not_emitted other]
    exact .skipped known emitted (skip_row check _)

/-- A row is that of an item, that of a failed iteration, or says that there was nothing. -/
theorem mem_run (filled : check.conditions ≠ []) (known : cache.get? check.forEach = some r)
    {row : CheckResult} (member : row ∈ check.run cache) :
    (∃ pair ∈ r.pairs, ItemRow check pair.1 pair.2 row) ∨
      (∃ f ∈ r.failures, FailureRow check f row) ∨ SkipRow check row := by
  by_cases emitted : r.status = .emitted
  · rw [run_of_emitted known emitted, List.mem_append, List.mem_map, List.mem_map] at member
    rcases member with ⟨pair, inside, rfl⟩ | ⟨f, inside, rfl⟩
    · exact .inl ⟨pair, inside, evaluateItem_row filled pair.1 pair.2⟩
    · exact .inr (.inl ⟨f, inside, failureRow_row check f⟩)
  · have other : ∀ q, cache.get? check.forEach = some q → q.status ≠ .emitted :=
      fun q found => Option.some.inj (known.symm.trans found) ▸ emitted
    rw [run_of_not_emitted other, List.mem_singleton] at member
    subst member
    exact .inr (.inr (skip_row check _))

end Check

namespace Catalog

theorem runChecks_eq (c : Catalog) (cache : Cache) :
    c.runChecks cache = (c.checks.map fun check => check.run cache).flatten := by
  rw [runChecks, List.flatMap_def]

/-- Every run of a compiled catalog gives each of its checks, in order, the rows of the
discovery it looks at. The report of a unit has these rows, and counts each of them. -/
theorem discovers_rows {σ : Type} {client : Client σ} (quiet : client.NeverCrashes)
    {doc : Document} {c : Catalog} (compiled : doc.compile = .ok c) {u : UnitContext}
    {parallelism : Nat} {s t : Session σ} {outcome : Option Cache}
    (run : Discovers client u c parallelism s outcome t) :
    ∃ cache rows, outcome = some cache ∧ c.runChecks cache = rows.flatten ∧
      List.Forall₂ (Check.RowsOf cache) c.checks rows ∧
      ∀ (planned : PlannedUnit) (start finish : Moment), planned.catalog = c →
        (planned.report start finish cache).checks = rows.flatten ∧
        (planned.report start finish cache).counts.total = rows.flatten.length := by
  obtain ⟨cache, ended, held⟩ := run.held quiet (planned_of_compile compiled)
  refine ⟨cache, _, ended, runChecks_eq c cache, ?_, ?_⟩
  · rw [List.forall₂_map_right_iff, List.forall₂_same]
    intro check member
    obtain ⟨d, known, same⟩ := exists_discovery compiled member
    obtain ⟨r, found, result⟩ := held d known
    rw [same] at found
    exact Check.run_rows (conditions_ne_nil compiled member) found result.numbered.length
  · rintro planned start finish rfl
    have rows := runChecks_eq planned.catalog cache
    refine ⟨rows, ?_⟩
    rw [UnitReport.counts, StatusCounts.total_ofResults]
    exact congrArg List.length rows

/-- A condition on a field of an item, as written and compiled. -/
def fieldEntry (field expected : String) : ConditionEntry := ⟨field, "equals", .string expected⟩

def fieldIs (field expected : String) : Condition :=
  ⟨⟨field, [.key field]⟩, .equals, .string expected⟩

/-- Hosts with their disks, audits whose failure is recorded, and keys. -/
def fleetDocument : Document :=
  { provider := "north", service := "compute",
    discovery := [{ listing "audits" none [] with onError := some .proceed },
      listing "disks" (some "hosts") [], listing "hosts" none [], listing "keys" none []],
    checks := [
      { checkId := "hosts-near", forEach := "hosts", logic := .any
        conditions := [fieldEntry "zone" "east", fieldEntry "zone" "west"] },
      { checkId := "disks-sealed", forEach := "disks"
        conditions := [fieldEntry "sealed" "yes", fieldEntry "zone" "east"] },
      { checkId := "audits-kept", forEach := "audits", conditions := [fieldEntry "kept" "yes"] },
      { checkId := "keys-fresh", forEach := "keys", conditions := [fieldEntry "fresh" "yes"] }] }

def fleet : Catalog :=
  { provider := "north", service := "compute", coverage := .regional, version := none,
    discoveries := [{ lister "audits" none [] with onError := .proceed },
      lister "disks" (some "hosts") [], lister "hosts" none [], lister "keys" none []]
    checks := [
      ⟨"hosts-near", "hosts-near", .medium, "hosts", .any, [fieldIs "zone" "east",
        fieldIs "zone" "west"]⟩,
      ⟨"disks-sealed", "disks-sealed", .medium, "disks", .every, [fieldIs "sealed" "yes",
        fieldIs "zone" "east"]⟩,
      ⟨"audits-kept", "audits-kept", .medium, "audits", .every, [fieldIs "kept" "yes"]⟩,
      ⟨"keys-fresh", "keys-fresh", .medium, "keys", .every, [fieldIs "fresh" "yes"]⟩]
    plan := ⟨[["audits", "hosts", "keys"], ["disks"]]⟩ }

theorem fleet_compiled : fleetDocument.compile = .ok fleet := by
  have planned : Plan.build (fleetDocument.discovery.map Document.dependency) =
      .ok fleet.plan := by cbv
  unfold Document.compile
  rw [planned]
  rfl

/-- There are two hosts, and two disks on the first one; nothing else can be listed. -/
def fleetAnswer (call : VendorCall) : Answer :=
  if call.request.resource = "hosts" then
    .ok (.array [.object [("name", .string "a"), ("zone", .string "west")],
      .object [("name", .string "b"), ("zone", .string "north")]])
  else if call.request.resource = "disks" ∧ call.request.resourceRef = some "a" then
    .ok (.array [.object [("name", .string "a1"), ("sealed", .string "yes"),
      ("zone", .string "east")], .object [("size", .string "large")]])
  else .error (.fatal "list" "forbidden")

def fleetClient : Client Unit := .ofFunction "fleet" fleetAnswer

theorem fleetClient_neverCrashes : fleetClient.NeverCrashes :=
  (Client.ofFunction_answersBy "fleet" fleetAnswer).neverCrashes

def fleetRun : Option Cache × Session Unit :=
  fleet.discover fleetClient estateUnit 2 ⟨(), [], false⟩

def fleetVerdicts : List (CheckStatus × Option String) :=
  [(.pass, some "a"), (.fail, some "b"), (.pass, some "a1"), (.fail, some "disks[1]"),
    (.error, some "b"), (.error, none), (.skip, none)]

/-- The first host is near; the second disk has neither field and no id of its own; disks
of the second host and the audits could not be listed; without keys a check is skipped. -/
theorem fleet_rows :
    fleetClient.NeverCrashes ∧ fleetDocument.compile = .ok fleet ∧
    ∃ cache rows, fleetRun.1 = some cache ∧ fleet.runChecks cache = rows.flatten ∧
      List.Forall₂ (Check.RowsOf cache) fleet.checks rows ∧
      rows.flatten.map (fun row => (row.status, row.resourceId)) = fleetVerdicts ∧
      (rows.flatten.map (·.detail))[3]? = some "conditions not satisfied: sealed, zone" ∧
      (PlannedUnit.report ⟨⟨"main", "west", "compute"⟩, fleet⟩ ⟨0⟩ ⟨250⟩ cache).counts.total =
        7 := by
  obtain ⟨cache, rows, ended, same, each, counted⟩ :=
    discovers_rows fleetClient_neverCrashes fleet_compiled
      (discover_discovers fleetClient estateUnit fleet 2 ⟨(), [], false⟩)
  have verdicts : rows.flatten.map (fun row => (row.status, row.resourceId)) = fleetVerdicts := by
    have told : fleetRun.1.map (fun cache =>
        (fleet.runChecks cache).map fun row => (row.status, row.resourceId)) =
        some fleetVerdicts := by decide +kernel
    rw [show fleetRun.1 = some cache from ended, Option.map_some, same] at told
    exact Option.some.inj told
  refine ⟨fleetClient_neverCrashes, fleet_compiled, cache, rows, ended, same, each, verdicts,
    ?_, ?_⟩
  · have told : fleetRun.1.map (fun cache => ((fleet.runChecks cache).map (·.detail))[3]?) =
        some (some "conditions not satisfied: sealed, zone") := by decide +kernel
    rw [show fleetRun.1 = some cache from ended, Option.map_some, same] at told
    exact Option.some.inj told
  · rw [(counted ⟨⟨"main", "west", "compute"⟩, fleet⟩ ⟨0⟩ ⟨250⟩ rfl).2]
    have many := congrArg List.length verdicts
    rw [List.length_map] at many
    exact many

end Catalog

end CloudAudit
