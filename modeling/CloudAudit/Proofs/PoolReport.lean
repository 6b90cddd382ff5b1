import CloudAudit.Proofs.PoolInvariant
import CloudAudit.Scan.Run
import Mathlib.Data.List.Nodup

set_option autoImplicit false

/- What the report says of each unit once all workers are done, whatever the mix
of their moves was. -/
namespace CloudAudit

namespace Pool

section

variable {ρ : Type} {units : Nat} {taken : List Nat} {outcomes : List (Nat × Option ρ)}
  {p : Pool ρ} {i : Nat}

theorem held_nil_of_over {γ : Type} {held? : Worker ρ → Option γ} (ended : p.isOver = true)
    (free : ∀ w, w.isDone = true → held? w = none) : p.workers.filterMap held? = [] := by
  rw [List.filterMap_eq_nil_iff]
  intro w member
  exact free w (List.all_eq_true.mp ended w member)

theorem Invariant.taken_nodup (inv : Invariant units taken outcomes p) : taken.Nodup := by
  have all := List.nodup_range (n := units)
  rw [← inv.queued] at all
  exact (List.nodup_append.mp all).1

theorem Invariant.mem_queue (inv : Invariant units taken outcomes p) (listed : i < units) :
    i ∈ p.queue ↔ i ∉ taken := by
  have all := List.nodup_range (n := units)
  have here : i ∈ taken ++ p.queue := by
    rw [inv.queued]
    exact List.mem_range.mpr listed
  rw [← inv.queued] at all
  constructor
  · intro waiting gone
    exact (List.nodup_append.mp all).2.2 i gone i waiting rfl
  · intro fresh
    exact (List.mem_append.mp here).resolve_left fresh

/-- At the end every unit taken has been run. -/
theorem Invariant.taken_perm (inv : Invariant units taken outcomes p) (ended : p.isOver = true) :
    taken.Perm (outcomes.map (·.1)) := by
  have counted := inv.under_way
  rwa [held_nil_of_over ended (fun w done => by cases w <;> simp_all [running?, Worker.isDone]),
    List.nil_append] at counted

/-- At the end every report has been handed in. -/
theorem Invariant.reported_perm (inv : Invariant units taken outcomes p)
    (ended : p.isOver = true) : (outcomes.filterMap reported?).Perm p.finished := by
  have counted := inv.handed_in
  rwa [held_nil_of_over ended (fun w done => by cases w <;> simp_all [reporting?, Worker.isDone]),
    List.nil_append] at counted

theorem Invariant.mem_taken (inv : Invariant units taken outcomes p) (ended : p.isOver = true) :
    i ∈ taken ↔ ∃ result, (i, result) ∈ outcomes := by
  rw [(inv.taken_perm ended).mem_iff, List.mem_map]
  constructor
  · rintro ⟨⟨_, result⟩, member, rfl⟩
    exact ⟨result, member⟩
  · rintro ⟨result, member⟩
    exact ⟨_, member, rfl⟩

theorem Invariant.outcome_unique (inv : Invariant units taken outcomes p)
    (ended : p.isOver = true) {first second : Option ρ} (once : (i, first) ∈ outcomes)
    (again : (i, second) ∈ outcomes) : first = second := by
  have distinct := (inv.taken_perm ended).nodup_iff.mp inv.taken_nodup
  exact (Prod.mk.inj (List.inj_on_of_nodup_map distinct once again rfl)).2

theorem Invariant.mem_finished (inv : Invariant units taken outcomes p)
    (ended : p.isOver = true) {r : ρ} : (i, r) ∈ p.finished ↔ (i, some r) ∈ outcomes := by
  rw [← (inv.reported_perm ended).mem_iff, List.mem_filterMap]
  constructor
  · rintro ⟨⟨j, result⟩, member, same⟩
    cases result with
    | none => cases same
    | some s =>
      cases same
      exact member
  · intro member
    exact ⟨_, member, rfl⟩

theorem Invariant.fate_reported (inv : Invariant units taken outcomes p)
    (ended : p.isOver = true) {r : ρ} (ran : (i, some r) ∈ outcomes) :
    p.fate i = .reported r := by
  cases found : p.finished.lookup i with
  | none =>
    have missing := List.lookup_eq_none_iff.mp found _ ((inv.mem_finished ended).mpr ran)
    simp at missing
  | some s =>
    obtain ⟨_, _, split, _⟩ := List.lookup_eq_some_iff.mp found
    have member : (i, s) ∈ p.finished := by simp [split]
    have same := inv.outcome_unique ended ran ((inv.mem_finished ended).mp member)
    cases same
    simp only [fate, found]

theorem Invariant.lookup_finished (inv : Invariant units taken outcomes p)
    (ended : p.isOver = true) (unreported : ∀ r, (i, some r) ∉ outcomes) :
    p.finished.lookup i = none := by
  rw [List.lookup_eq_none_iff]
  rintro ⟨j, r⟩ member
  by_contra same
  have same : i = j := by simpa using same
  subst same
  exact unreported r ((inv.mem_finished ended).mp member)

theorem Invariant.fate_crashed (inv : Invariant units taken outcomes p)
    (ended : p.isOver = true) (listed : i < units) (ran : (i, none) ∈ outcomes) :
    p.fate i = .crashed := by
  have unreported : ∀ r, (i, some r) ∉ outcomes := fun r member => by
    cases inv.outcome_unique ended ran member
  have gone : i ∉ p.queue := by
    rw [inv.mem_queue listed, not_not]
    exact (inv.mem_taken ended).mpr ⟨none, ran⟩
  simp [fate, inv.lookup_finished ended unreported, gone]

theorem Invariant.fate_untaken (inv : Invariant units taken outcomes p)
    (ended : p.isOver = true) (listed : i < units) (fresh : i ∉ taken) :
    p.fate i = if p.cancelled then .cancelled else .abandoned := by
  have unreported : ∀ r, (i, some r) ∉ outcomes := fun r member =>
    fresh ((inv.mem_taken ended).mpr ⟨some r, member⟩)
  have waiting := (inv.mem_queue listed).mpr fresh
  simp [fate, inv.lookup_finished ended unreported, waiting]

/-- Without a wish to stop, only crashes leave units in the queue. -/
theorem Invariant.all_crashed (inv : Invariant units taken outcomes p) (ended : p.isOver = true)
    (uncancelled : p.cancelled = false) (listed : i < units) (fresh : i ∉ taken) :
    ∀ w ∈ p.workers, w = .crashed := by
  intro w member
  have done := List.all_eq_true.mp ended w member
  cases w with
  | crashed => rfl
  | stopped =>
    have waiting := (inv.mem_queue listed).mpr fresh
    rcases inv.stops member with stop | dry
    · simp [uncancelled] at stop
    · simp [dry] at waiting
  | looking => cases done
  | taking => cases done
  | running => cases done
  | reporting => cases done

end

theorem workers_length_of_moves {ρ : Type} (ms : List (Move ρ)) :
    ∀ {p q : Pool ρ}, p.moves ms = some q → q.workers.length = p.workers.length := by
  induction ms with
  | nil =>
    intro p q reached
    cases reached
    rfl
  | cons m rest ih =>
    intro p q reached
    obtain ⟨next, first, reached⟩ := Option.bind_eq_some_iff.mp reached
    rw [ih reached]
    cases step_of_move first <;> simp [setWorker]

end Pool

/-- How a run of a unit may end: with a report made of results of its
discoveries, whatever these are and whenever it started and finished, or with a crash. -/
def PlannedUnit.MayEnd (u : PlannedUnit) : Option UnitReport → Prop
  | some r => ∃ start finish cache, r = u.report start finish cache
  | none => True

theorem PlannedUnit.run_mayEnd {σ : Type} (client : Client σ) (config : ScanConfig)
    (start finish : Moment) (u : PlannedUnit) (s : Session σ) :
    u.MayEnd (u.run client config start finish s).1 := by
  simp only [PlannedUnit.run]
  cases (u.catalog.discover client (u.context config.retry) (max 1 config.parallelism) s).1 with
  | none => trivial
  | some cache => exact ⟨start, finish, cache, rfl⟩

/-- Moves of a scan from its start until all workers are done. Every run is a
run of the planned unit. -/
structure Interleaving (planned : List PlannedUnit) (workers : Nat)
    (ms : List (Move UnitReport)) (p : Pool UnitReport) : Prop where
  reached : (Pool.start planned.length workers).moves ms = some p
  ended : p.isOver = true
  own : ∀ i result, (i, result) ∈ (Pool.start planned.length workers).outcomes ms →
    ∀ u, planned[i]? = some u → u.MayEnd result

theorem entriesFrom_getElem? (p : Pool UnitReport) (planned : List PlannedUnit) :
    ∀ position i : Nat, (entriesFrom p position planned)[i]? =
      planned[i]?.map fun u => u.entry (p.fate (position + i)) := by
  induction planned with
  | nil =>
    intro position i
    simp [entriesFrom]
  | cons u rest ih =>
    intro position i
    cases i with
    | zero => rfl
    | succ i =>
      simp only [entriesFrom, List.getElem?_cons_succ, ih]
      rw [show position + 1 + i = position + (i + 1) by omega]

theorem entries_getElem? (planned : List PlannedUnit) (p : Pool UnitReport) (i : Nat) :
    (entries planned p)[i]? = planned[i]?.map fun u => u.entry (p.fate i) := by
  simpa [entries] using entriesFrom_getElem? p planned 0 i

theorem entries_length (planned : List PlannedUnit) (p : Pool UnitReport) :
    (entries planned p).length = planned.length := by
  have from_position : ∀ position, (entriesFrom p position planned).length = planned.length := by
    induction planned with
    | nil => intro position; rfl
    | cons u rest ih => intro position; simp [entriesFrom, ih]
  exact from_position 0

namespace Interleaving

variable {planned : List PlannedUnit} {workers : Nat} {ms : List (Move UnitReport)}
  {p : Pool UnitReport}

theorem invariant (run : Interleaving planned workers ms p) :
    Pool.Invariant planned.length ((Pool.start planned.length workers).taken ms)
      ((Pool.start planned.length workers).outcomes ms) p := by
  simpa using Pool.moves_invariant ms (Pool.start_invariant planned.length workers) run.reached

theorem cancelled_iff (run : Interleaving planned workers ms p) :
    p.cancelled = true ↔ Move.cancel ∈ ms := by
  simpa [Pool.start] using Pool.cancelled_of_moves ms run.reached

/-- A report that a run ended with has the coordinates of its unit and was started. -/
theorem own_report (run : Interleaving planned workers ms p) {i : Nat} {u : PlannedUnit}
    (present : planned[i]? = some u) {r : UnitReport}
    (ran : (i, some r) ∈ (Pool.start planned.length workers).outcomes ms) :
    r.unit = u.unit ∧ r.provider = u.catalog.provider ∧ r.startedAt ≠ none := by
  obtain ⟨start, finish, cache, rfl⟩ := run.own i (some r) ran u present
  exact ⟨rfl, rfl, by simp [PlannedUnit.report]⟩

end Interleaving

/-- Entry of a planned unit after an interleaving: what it says, and when. -/
structure Accounts (u : PlannedUnit) (i : Nat) (taken : List Nat)
    (outcomes : List (Nat × Option UnitReport)) (cancelled : Bool) (entry : UnitReport) :
    Prop where
  coordinates : entry.unit = u.unit ∧ entry.provider = u.catalog.provider
  own_iff : (∃ r, (i, some r) ∈ outcomes ∧ entry = r) ↔ i ∈ taken ∧ (i, none) ∉ outcomes
  crashed_iff : entry = .failed u.unit u.catalog.provider crashedText ↔
    i ∈ taken ∧ (i, none) ∈ outcomes
  untaken : i ∉ taken → entry = if cancelled then .cancelled u.unit u.catalog.provider
    else .failed u.unit u.catalog.provider abandonedText

theorem Interleaving.accounts {planned : List PlannedUnit} {workers : Nat}
    {ms : List (Move UnitReport)} {p : Pool UnitReport}
    (run : Interleaving planned workers ms p) {i : Nat} {u : PlannedUnit}
    (present : planned[i]? = some u) :
    Accounts u i ((Pool.start planned.length workers).taken ms)
      ((Pool.start planned.length workers).outcomes ms) p.cancelled (u.entry (p.fate i)) := by
  have inv := run.invariant
  have listed := (List.getElem?_eq_some_iff.mp present).1
  by_cases gone : i ∈ (Pool.start planned.length workers).taken ms
  · obtain ⟨result, ran⟩ := (inv.mem_taken run.ended).mp gone
    cases result with
    | none =>
      rw [inv.fate_crashed run.ended listed ran]
      refine ⟨⟨rfl, rfl⟩, ?_, ⟨fun _ => ⟨gone, ran⟩, fun _ => rfl⟩, absurd gone⟩
      constructor
      · rintro ⟨r, reported, _⟩
        cases inv.outcome_unique run.ended ran reported
      · rintro ⟨_, sound⟩
        exact absurd ran sound
    | some r =>
      obtain ⟨unit, provider, started⟩ := run.own_report present ran
      rw [inv.fate_reported run.ended ran]
      have sound : (i, none) ∉ (Pool.start planned.length workers).outcomes ms := by
        intro lost
        cases inv.outcome_unique run.ended ran lost
      refine ⟨⟨unit, provider⟩, ⟨fun _ => ⟨gone, sound⟩, fun _ => ⟨r, ran, rfl⟩⟩, ?_, absurd gone⟩
      constructor
      · intro same
        change r = _ at same
        rw [same] at started
        exact absurd rfl started
      · rintro ⟨_, lost⟩
        exact absurd lost sound
  · rw [inv.fate_untaken run.ended listed gone]
    refine ⟨?_, ?_, ?_, fun _ => ?_⟩
    · cases p.cancelled <;> exact ⟨rfl, rfl⟩
    · constructor
      · rintro ⟨r, ran, _⟩
        exact absurd ((inv.mem_taken run.ended).mpr ⟨_, ran⟩) gone
      · rintro ⟨taken, _⟩
        exact absurd taken gone
    · constructor
      · intro same
        cases stop : p.cancelled <;>
          simp [stop, PlannedUnit.entry, UnitReport.failed, UnitReport.cancelled, crashedText,
            abandonedText] at same
      · rintro ⟨taken, _⟩
        exact absurd taken gone
    · cases p.cancelled <;> rfl

/-- Every interleaving of a scan accounts for every planned unit: no unit is
taken twice, and each entry of the report, in planned order, is the unit's own
report, or says that its worker crashed, that the scan was cancelled, or that no
worker was left. -/
theorem entries_account_for_units (planned : List PlannedUnit) (workers : Nat)
    (ms : List (Move UnitReport)) (p : Pool UnitReport)
    (run : Interleaving planned workers ms p) :
    let taken := (Pool.start planned.length workers).taken ms
    let outcomes := (Pool.start planned.length workers).outcomes ms
    (entries planned p).length = planned.length ∧ taken.Nodup ∧
    (∀ (i : Nat) (u : PlannedUnit), planned[i]? = some u →
      ∃ entry, (entries planned p)[i]? = some entry ∧
        Accounts u i taken outcomes p.cancelled entry) ∧
    (p.cancelled = true ↔ Move.cancel ∈ ms) ∧
    (Move.cancel ∉ ms → ∀ i < planned.length, i ∉ taken → ∀ w ∈ p.workers, w = .crashed) ∧
    (0 < workers → (∀ i, (i, none) ∉ outcomes) →
      ∀ (i : Nat) (u : PlannedUnit), planned[i]? = some u →
      (∃ r, (i, some r) ∈ outcomes ∧ (entries planned p)[i]? = some r) ∨
      (Move.cancel ∈ ms ∧ i ∉ taken ∧
        (entries planned p)[i]? = some (.cancelled u.unit u.catalog.provider))) := by
  have inv := run.invariant
  have entry_at : ∀ (i : Nat) (u : PlannedUnit), planned[i]? = some u →
      (entries planned p)[i]? = some (u.entry (p.fate i)) := by
    intro i u present
    rw [entries_getElem?, present]
    rfl
  have stranded : Move.cancel ∉ ms → ∀ i < planned.length,
      i ∉ (Pool.start planned.length workers).taken ms → ∀ w ∈ p.workers, w = .crashed := by
    intro uncancelled i listed fresh
    have unset : p.cancelled = false := by
      rw [← Bool.not_eq_true, run.cancelled_iff]
      exact uncancelled
    exact inv.all_crashed run.ended unset listed fresh
  refine ⟨entries_length planned p, inv.taken_nodup,
    fun i u present => ⟨_, entry_at i u present, run.accounts present⟩, run.cancelled_iff,
    stranded, ?_⟩
  intro some_worker sound i u present
  have listed := (List.getElem?_eq_some_iff.mp present).1
  have accounts := run.accounts present
  rw [entry_at i u present]
  by_cases gone : i ∈ (Pool.start planned.length workers).taken ms
  · obtain ⟨r, ran, same⟩ := accounts.own_iff.mpr ⟨gone, sound i⟩
    exact .inl ⟨r, ran, congrArg some same⟩
  · have cancelled : Move.cancel ∈ ms := by
      by_contra uncancelled
      have all := stranded uncancelled i listed gone
      have many := Pool.workers_length_of_moves ms run.reached
      rw [show (Pool.start planned.length workers : Pool UnitReport).workers.length = workers
        from List.length_replicate] at many
      have member := List.getElem_mem (l := p.workers) (n := 0) (by omega)
      rw [all _ member] at member
      obtain ⟨i, lost⟩ := inv.crashes member
      exact sound i lost
    have entry := accounts.untaken gone
    rw [run.cancelled_iff.mpr cancelled] at entry
    exact .inr ⟨cancelled, gone, congrArg some entry⟩

/-- Three units of one service. -/
def threeRegions : List PlannedUnit :=
  ["east", "north", "west"].map fun region => ⟨⟨"a", region, "compute"⟩, default⟩

/-- The report of the second one when nothing was discovered. -/
def northReport : UnitReport := PlannedUnit.report ⟨⟨"a", "north", "compute"⟩, default⟩ ⟨0⟩ ⟨250⟩ []

/-- The first worker crashes with the first unit. The second one reports the
second unit while the scan is cancelled. -/
def crashThenCancel : List (Move UnitReport) :=
  [.look 0, .look 1, .take 0, .take 1, .run 0 none, .cancel, .run 1 (some northReport), .handIn 1,
    .look 1]

theorem crashThenCancel_accounts :
    ∃ p, Interleaving threeRegions 2 crashThenCancel p ∧
      (entries threeRegions p)[0]? =
        some (.failed ⟨"a", "east", "compute"⟩ "" crashedText) ∧
      (entries threeRegions p)[1]? = some northReport ∧
      (entries threeRegions p)[2]? = some (.cancelled ⟨"a", "west", "compute"⟩ "") := by
  have run : Interleaving threeRegions 2 crashThenCancel
      ⟨[2], [.crashed, .stopped], [(1, northReport)], true⟩ := by
    refine ⟨rfl, rfl, fun i result ran u present => ?_⟩
    have listed : (i, result) ∈ [(0, none), (1, some northReport)] := ran
    simp only [List.mem_cons, Prod.mk.injEq, List.not_mem_nil, or_false] at listed
    rcases listed with ⟨rfl, rfl⟩ | ⟨rfl, rfl⟩
    · trivial
    · cases present
      exact ⟨⟨0⟩, ⟨250⟩, [], rfl⟩
  obtain ⟨_, _, accounts, _⟩ := entries_account_for_units _ _ _ _ run
  obtain ⟨_, first, crashed⟩ := accounts 0 _ rfl
  obtain ⟨_, second, own⟩ := accounts 1 _ rfl
  obtain ⟨_, third, untaken⟩ := accounts 2 _ rfl
  refine ⟨_, run, ?_, ?_, ?_⟩
  · rw [first, crashed.crashed_iff.mpr ⟨by decide, List.mem_cons_self⟩]
    rfl
  · have ran : (Pool.start 3 2).outcomes crashThenCancel = [(0, none), (1, some northReport)] := rfl
    obtain ⟨r, reported, same⟩ := own.own_iff.mpr ⟨by decide, by simp [threeRegions, ran]⟩
    simp only [threeRegions, List.length_map, List.length_cons, List.length_nil, ran] at reported
    rw [second, same]
    simpa using reported
  · rw [third, untaken.untaken (by decide)]
    rfl

end CloudAudit
