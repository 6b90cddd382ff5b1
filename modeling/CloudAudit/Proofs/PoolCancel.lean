import CloudAudit.Proofs.PoolSchedule
import Mathlib.Data.List.Perm.Subperm

set_option autoImplicit false

/- What a scan still does once it is cancelled. Looking and taking are separate moves, so a
worker that has looked before takes one more unit. It looks again before the next one, and
stops. What nobody took is the end of the plan, and only that is reported as cancelled. -/
namespace CloudAudit

/-- Moves a worker makes at most once the scan is cancelled. -/
def Worker.turnsLeft {ρ : Type} : Worker ρ → Nat
  | .taking => 4
  | .running _ => 3
  | .reporting _ _ => 2
  | .looking => 1
  | .stopped | .crashed => 0

namespace Pool

variable {ρ β : Type}

/-- Moves the worker at a place makes at most once the scan is cancelled. -/
def turnsLeft (p : Pool ρ) (w : Nat) : Nat := (p.workers[w]?.map Worker.turnsLeft).getD 0

/-- The workers of the moves that let see something, in order. -/
def movers (see : Pool ρ → Move ρ → Option β) (p : Pool ρ) (ms : List (Move ρ)) : List Nat :=
  p.log (fun p m => (see p m).bind fun _ => m.worker?) ms

section

variable {p q : Pool ρ} {m : Move ρ}

theorem turnsLeft_eq {w : Nat} {x : Worker ρ} (here : p.workers[w]? = some x) :
    p.turnsLeft w = x.turnsLeft := by
  rw [turnsLeft, here]
  rfl

theorem turnsLeft_lt_of_set {w : Nat} {x y : Worker ρ} (here : p.workers[w]? = some x)
    (workers : q.workers = p.workers.set w y) (nearer : y.turnsLeft < x.turnsLeft) :
    q.turnsLeft w < p.turnsLeft w := by
  rw [turnsLeft_eq here, turnsLeft, workers,
    List.getElem?_set_self (List.getElem?_eq_some_iff.mp here).1]
  exact nearer

/-- Once the scan is cancelled, each move of a worker takes it nearer to its end. -/
theorem Step.turnsLeft_lt (step : Step p m q) (stop : p.cancelled = true) {w : Nat}
    (mine : m.worker? = some w) : q.turnsLeft w < p.turnsLeft w := by
  cases step with
  | proceed _ go =>
    rw [stop] at go
    cases go
  | cancel => cases mine
  | leave here | starve here | take here | finish here | crash here | handIn here =>
    cases mine
    exact turnsLeft_lt_of_set here rfl (by simp [Worker.turnsLeft])

theorem Step.turnsLeft_le (step : Step p m q) (stop : p.cancelled = true) (w : Nat) :
    q.turnsLeft w ≤ p.turnsLeft w := by
  by_cases mine : m.worker? = some w
  · exact Nat.le_of_lt (step.turnsLeft_lt stop mine)
  · rw [turnsLeft, step.frame.1 w mine]
    exact Nat.le_refl _

theorem Step.cancelled (step : Step p m q) (stop : p.cancelled = true) : q.cancelled = true := by
  cases step with
  | cancel => rfl
  | _ => exact stop

theorem turnsLeft_of_taken {x w : Nat} (took : p.takenBy m = some x)
    (mine : m.worker? = some w) : p.turnsLeft w = 4 := by
  cases m with
  | take v =>
    cases mine
    simp only [takenBy] at took
    split at took
    · rename_i here
      exact turnsLeft_eq here
    · cases took
  | _ => cases took

theorem turnsLeft_of_outcome {x : Nat × Option ρ} {w : Nat} (ran : p.outcomeOf m = some x)
    (mine : m.worker? = some w) : p.turnsLeft w = 3 := by
  cases m with
  | run v report =>
    cases mine
    simp only [outcomeOf] at ran
    split at ran
    · rename_i here
      exact turnsLeft_eq here
    · cases ran
  | _ => cases ran

end

section

variable {see : Pool ρ → Move ρ → Option β} {turns : Nat}

/-- What workers do at one distance from their end, each of them does at most once after the
scan was cancelled, and only if it is not yet nearer. -/
theorem movers_after_cancel
    (at_turns : ∀ p m x w, see p m = some x → m.worker? = some w → p.turnsLeft w = turns)
    (ms : List (Move ρ)) : ∀ {p q : Pool ρ}, p.cancelled = true → p.moves ms = some q →
      (p.movers see ms).Nodup ∧ ∀ w ∈ p.movers see ms, turns ≤ p.turnsLeft w := by
  induction ms with
  | nil =>
    intro p q _ _
    simp [movers, log]
  | cons m rest ih =>
    intro p q stop reached
    obtain ⟨next, first, reached⟩ := Option.bind_eq_some_iff.mp reached
    have step := step_of_move first
    obtain ⟨once, not_nearer⟩ := ih (step.cancelled stop) reached
    have earlier : ∀ w ∈ next.movers see rest, turns ≤ p.turnsLeft w := fun w later =>
      Nat.le_trans (not_nearer w later) (step.turnsLeft_le stop w)
    have split : p.movers see (m :: rest) =
        ((see p m).bind fun _ => m.worker?).toList ++ next.movers see rest := by
      simp only [movers, log, first]
    rw [split]
    cases seen : (see p m).bind fun _ => m.worker? with
    | none => exact ⟨once, earlier⟩
    | some w =>
      -- This move takes the worker below `turns`, and no later one lifts it again.
      obtain ⟨x, visible, mine⟩ := Option.bind_eq_some_iff.mp seen
      have here := at_turns p m x w visible mine
      have nearer := step.turnsLeft_lt stop mine
      refine ⟨List.nodup_cons.mpr ⟨fun again => ?_, once⟩, fun v member => ?_⟩
      · have far := not_nearer w again
        omega
      · rcases List.mem_cons.mp member with rfl | later
        · exact Nat.le_of_eq here.symm
        · exact earlier v later

theorem movers_length (unseen : ∀ p, see p .cancel = none) (ms : List (Move ρ)) (p : Pool ρ) :
    (p.movers see ms).length = (p.log see ms).length := by
  induction ms generalizing p with
  | nil => rfl
  | cons m rest ih =>
    simp only [movers, log] at ih ⊢
    cases p.move m with
    | none => rfl
    | some q =>
      simp only [List.length_append, ih]
      cases m with
      | cancel => simp [unseen]
      | _ => cases see p _ <;> rfl

/-- So after the scan was cancelled this is done at most as often as there are workers. -/
theorem log_length_after_cancel
    (at_turns : ∀ p m x w, see p m = some x → m.worker? = some w → p.turnsLeft w = turns)
    (unseen : ∀ p, see p .cancel = none) (unfinished : 0 < turns) {ms : List (Move ρ)}
    {p q : Pool ρ} (stop : p.cancelled = true) (reached : p.moves ms = some q) :
    (p.log see ms).length ≤ p.workers.length := by
  obtain ⟨once, not_nearer⟩ := movers_after_cancel at_turns ms stop reached
  have listed : p.movers see ms ⊆ List.range p.workers.length := by
    intro w member
    have busy := not_nearer w member
    by_contra outside
    have nobody : p.workers[w]? = none := by simpa using outside
    rw [turnsLeft, nobody] at busy
    exact absurd busy (Nat.not_le.mpr unfinished)
  have short := (once.subperm listed).length_le
  rwa [movers_length unseen, List.length_range] at short

end

/-- What workers do between two points of a run after the scan was cancelled. -/
structure WindsDown (p : Pool ρ) (ms : List (Move ρ)) (workers : Nat) : Prop where
  takes_once : (p.movers takenBy ms).Nodup
  takes_few : (p.taken ms).length ≤ workers
  runs_once : (p.movers outcomeOf ms).Nodup
  runs_few : (p.outcomes ms).length ≤ workers

theorem windsDown {ms : List (Move ρ)} {p q : Pool ρ} (stop : p.cancelled = true)
    (reached : p.moves ms = some q) : p.WindsDown ms p.workers.length := by
  have takes : ∀ (p : Pool ρ) m x w, p.takenBy m = some x → m.worker? = some w →
      p.turnsLeft w = 4 := fun _ _ _ _ => turnsLeft_of_taken
  have runs : ∀ (p : Pool ρ) m x w, p.outcomeOf m = some x → m.worker? = some w →
      p.turnsLeft w = 3 := fun _ _ _ _ => turnsLeft_of_outcome
  refine ⟨(movers_after_cancel takes ms stop reached).1, ?_,
    (movers_after_cancel runs ms stop reached).1, ?_⟩
  · exact log_length_after_cancel takes (fun _ => rfl) (by decide) stop reached
  · exact log_length_after_cancel runs (fun _ => rfl) (by decide) stop reached

/-- From any point on at which the scan is cancelled, the workers only wind down. -/
theorem start_windsDown {units workers : Nat} {before after : List (Move ρ)} {q : Pool ρ}
    (reached : (start units workers).moves (before ++ after) = some q)
    (cancelled : Move.cancel ∈ before) :
    ∃ p, (start units workers).moves before = some p ∧ p.WindsDown after workers := by
  rw [moves_append] at reached
  obtain ⟨p, first, rest⟩ := Option.bind_eq_some_iff.mp reached
  have stop := (cancelled_of_moves before first).mpr (.inr cancelled)
  have down := windsDown stop rest
  rw [workers_length_of_moves before first, start, List.length_replicate] at down
  exact ⟨p, first, down⟩

theorem Invariant.taken_eq_range {units : Nat} {taken : List Nat}
    {outcomes : List (Nat × Option ρ)} {p : Pool ρ} (inv : Invariant units taken outcomes p) :
    taken = List.range taken.length := by
  have front := congrArg (List.take taken.length) inv.queued
  rw [List.take_left, List.take_range] at front
  rw [← List.length_range (n := units), ← inv.queued, List.length_append,
    Nat.min_eq_left (Nat.le_add_right _ _)] at front
  exact front

end Pool

theorem PlannedUnit.MayEnd.uncancelled {u : PlannedUnit} {r : UnitReport}
    (own : u.MayEnd (some r)) : r.status ≠ .cancelled := by
  obtain ⟨start, finish, cache, rfl⟩ := own
  simp only [PlannedUnit.report]
  split <;> simp

/-- The entry of a unit that was run: its own report, or that its worker crashed. -/
def PlannedUnit.ended (u : PlannedUnit) (result : Option UnitReport) : UnitReport :=
  result.getD (.failed u.unit u.catalog.provider crashedText)

theorem PlannedUnit.MayEnd.ended_uncancelled {u : PlannedUnit} {result : Option UnitReport}
    (own : u.MayEnd result) : (u.ended result).status ≠ .cancelled := by
  cases result with
  | none => simp [PlannedUnit.ended, UnitReport.failed]
  | some r => exact own.uncancelled

namespace Interleaving

variable {planned : List PlannedUnit} {workers : Nat} {ms : List (Move UnitReport)}
  {p : Pool UnitReport} {i : Nat}

theorem planned_of_taken (run : Interleaving planned workers ms p)
    (gone : i ∈ (Pool.start planned.length workers).taken ms) : ∃ u, planned[i]? = some u := by
  have within : i ∈ List.range planned.length := by
    rw [← run.invariant.queued]
    exact List.mem_append_left _ gone
  exact ⟨_, List.getElem?_eq_getElem (List.mem_range.mp within)⟩

theorem entry_of_outcome (run : Interleaving planned workers ms p) {result : Option UnitReport}
    (ran : (i, result) ∈ (Pool.start planned.length workers).outcomes ms) :
    ∃ u, planned[i]? = some u ∧ u.MayEnd result ∧
      (entries planned p)[i]? = some (u.ended result) := by
  have inv := run.invariant
  obtain ⟨u, present⟩ := run.planned_of_taken ((inv.mem_taken run.ended).mpr ⟨result, ran⟩)
  have listed := (List.getElem?_eq_some_iff.mp present).1
  refine ⟨u, present, run.own i result ran u present, ?_⟩
  rw [entries_getElem?, present]
  cases result with
  | none =>
    rw [inv.fate_crashed run.ended listed ran]
    rfl
  | some r =>
    rw [inv.fate_reported run.ended ran]
    rfl

theorem entry_of_untaken (run : Interleaving planned workers ms p) (stop : p.cancelled = true)
    (fresh : i ∉ (Pool.start planned.length workers).taken ms) :
    (entries planned p)[i]? =
      planned[i]?.map fun u => .cancelled u.unit u.catalog.provider := by
  rw [entries_getElem?]
  cases present : planned[i]? with
  | none => rfl
  | some u =>
    have listed := (List.getElem?_eq_some_iff.mp present).1
    rw [run.invariant.fate_untaken run.ended listed fresh, stop]
    rfl

theorem uncancelled_of_taken (run : Interleaving planned workers ms p)
    (gone : i ∈ (Pool.start planned.length workers).taken ms) {entry : UnitReport}
    (here : (entries planned p)[i]? = some entry) : entry.status ≠ .cancelled := by
  obtain ⟨result, ran⟩ := (run.invariant.mem_taken run.ended).mp gone
  obtain ⟨u, _, own, same⟩ := run.entry_of_outcome ran
  obtain rfl : u.ended result = entry := Option.some.inj (same.symm.trans here)
  exact own.ended_uncancelled

theorem cancelled_iff_untaken (run : Interleaving planned workers ms p)
    (stop : p.cancelled = true) {entry : UnitReport}
    (here : (entries planned p)[i]? = some entry) :
    entry.status = .cancelled ↔ i ∉ (Pool.start planned.length workers).taken ms := by
  constructor
  · intro cancelled gone
    exact run.uncancelled_of_taken gone here cancelled
  · intro fresh
    rw [run.entry_of_untaken stop fresh] at here
    obtain ⟨u, _, rfl⟩ := Option.map_eq_some_iff.mp here
    rfl

end Interleaving

/-- Whenever a scan is cancelled, from then on each worker takes one more unit at most, and the
units taken or run are no more than the workers. Every unit taken, before or after, is run once,
and its entry is its own report or says that its worker crashed. A scan that is cancelled at the
end reports as cancelled what was never taken, which is the rest of the plan. -/
theorem cancelled_scan_finishes_taken_units (planned : List PlannedUnit) (workers : Nat) :
    let start : Pool UnitReport := Pool.start planned.length workers
    (∀ before after q, start.moves (before ++ after) = some q → Move.cancel ∈ before →
      ∃ p, start.moves before = some p ∧ p.WindsDown after workers ∧
        start.taken (before ++ after) = start.taken before ++ p.taken after ∧
        start.outcomes (before ++ after) = start.outcomes before ++ p.outcomes after) ∧
    ∀ ms p, Interleaving planned workers ms p →
      let taken := start.taken ms
      taken.Nodup ∧ taken.Perm ((start.outcomes ms).map (·.1)) ∧
      (∀ i result, (i, result) ∈ start.outcomes ms → ∃ u, planned[i]? = some u ∧
        (entries planned p)[i]? = some (u.ended result) ∧ (u.ended result).status ≠ .cancelled) ∧
      (p.cancelled = true →
        (∀ (i : Nat) (entry : UnitReport), (entries planned p)[i]? = some entry →
          (entry.status = .cancelled ↔ i ∉ taken)) ∧
        taken = List.range taken.length ∧
        (entries planned p).drop taken.length =
          (planned.drop taken.length).map fun u => .cancelled u.unit u.catalog.provider) := by
  refine ⟨fun before after q reached cancelled => ?_, fun ms p run => ?_⟩
  · obtain ⟨p, first, down⟩ := Pool.start_windsDown reached cancelled
    exact ⟨p, first, down, Pool.log_append _ before after first,
      Pool.log_append _ before after first⟩
  · have inv := run.invariant
    refine ⟨inv.taken_nodup, inv.taken_perm run.ended, fun i result ran => ?_, fun stop =>
      ⟨fun i entry => run.cancelled_iff_untaken stop, inv.taken_eq_range, ?_⟩⟩
    · obtain ⟨u, present, own, same⟩ := run.entry_of_outcome ran
      exact ⟨u, present, same, own.ended_uncancelled⟩
    · refine List.ext_getElem? fun j => ?_
      rw [List.getElem?_drop, List.getElem?_map, List.getElem?_drop]
      refine run.entry_of_untaken stop ?_
      rw [inv.taken_eq_range, List.mem_range, List.length_range]
      omega

/-- Both workers have looked when the scan is cancelled. Each takes one more unit, one crashes
with it, and the other one reports. -/
def cancelThenTake : List (Move UnitReport) :=
  [.look 0, .look 1, .cancel, .take 0, .take 1, .run 0 none, .run 1 (some northReport), .handIn 1,
    .look 1]

theorem cancelThenTake_finishes :
    ∃ p, Interleaving threeRegions 2 cancelThenTake p ∧
      (∃ q, (Pool.start 3 2).moves [.look 0, .look 1, .cancel] = some q ∧
        (q.taken (cancelThenTake.drop 3)).length = 2 ∧ q.WindsDown (cancelThenTake.drop 3) 2) ∧
      (entries threeRegions p).drop 2 = [.cancelled ⟨"a", "west", "compute"⟩ ""] := by
  have run : Interleaving threeRegions 2 cancelThenTake
      ⟨[2], [.crashed, .stopped], [(1, northReport)], true⟩ := by
    refine ⟨rfl, rfl, fun i result ran u present => ?_⟩
    have listed : (i, result) ∈ [(0, none), (1, some northReport)] := ran
    simp only [List.mem_cons, Prod.mk.injEq, List.not_mem_nil, or_false] at listed
    rcases listed with ⟨rfl, rfl⟩ | ⟨rfl, rfl⟩
    · trivial
    · cases present
      exact ⟨⟨0⟩, ⟨250⟩, [], rfl⟩
  obtain ⟨winds, finishes⟩ := cancelled_scan_finishes_taken_units threeRegions 2
  refine ⟨_, run, ?_, ?_⟩
  · obtain ⟨q, first, down, _⟩ := winds (cancelThenTake.take 3) (cancelThenTake.drop 3) _
      run.reached (by simp [cancelThenTake])
    refine ⟨q, first, ?_, down⟩
    cases first
    rfl
  · obtain ⟨_, _, _, rest⟩ := finishes _ _ run
    exact (rest rfl).2.2

end CloudAudit
