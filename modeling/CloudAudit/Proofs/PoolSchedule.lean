import CloudAudit.Proofs.PoolReport

set_option autoImplicit false

/- The schedule a scan takes when it runs on its own, worker after worker, is one
of the interleavings of its workers. -/
namespace CloudAudit

/-- The worker a move belongs to. -/
def Move.worker? {ρ : Type} : Move ρ → Option Nat
  | .look w => some w
  | .take w => some w
  | .run w _ => some w
  | .handIn w => some w
  | .cancel => none

namespace Pool

variable {ρ β : Type}

theorem moves_append (xs ys : List (Move ρ)) (p : Pool ρ) :
    p.moves (xs ++ ys) = (p.moves xs).bind (·.moves ys) := by
  induction xs generalizing p with
  | nil => rfl
  | cons m rest ih =>
    simp only [List.cons_append, moves]
    cases p.move m with
    | none => rfl
    | some q => exact ih q

theorem log_append (see : Pool ρ → Move ρ → Option β) (xs ys : List (Move ρ)) :
    ∀ {p q : Pool ρ}, p.moves xs = some q → p.log see (xs ++ ys) = p.log see xs ++ q.log see ys := by
  induction xs with
  | nil =>
    intro p q reached
    cases reached
    rfl
  | cons m rest ih =>
    intro p q reached
    obtain ⟨next, first, reached⟩ := Option.bind_eq_some_iff.mp reached
    simp only [List.cons_append, log, first, ih reached, List.append_assoc]

/-- A move leaves the other workers alone and takes from the queue at most. -/
theorem Step.frame {p q : Pool ρ} {m : Move ρ} (step : Step p m q) :
    (∀ v, m.worker? ≠ some v → q.workers[v]? = p.workers[v]?) ∧ q.queue <:+ p.queue := by
  have untouched : ∀ {w : Nat} {state : Worker ρ} (v : Nat), some w ≠ some v →
      (p.workers.set w state)[v]? = p.workers[v]? := by
    intro w state v other
    rw [List.getElem?_set_ne (fun same => other (congrArg some same))]
  cases step with
  | leave => exact ⟨untouched, List.suffix_refl _⟩
  | proceed => exact ⟨untouched, List.suffix_refl _⟩
  | starve => exact ⟨untouched, List.suffix_refl _⟩
  | take at_take first => exact ⟨untouched, by rw [first]; exact List.suffix_cons _ _⟩
  | finish => exact ⟨untouched, List.suffix_refl _⟩
  | crash => exact ⟨untouched, List.suffix_refl _⟩
  | handIn => exact ⟨untouched, List.suffix_refl _⟩
  | cancel => exact ⟨fun _ _ => rfl, List.suffix_refl _⟩

end Pool

/-- Moves lead from a pool to another, and every run is a run of the planned unit. -/
def Leads (planned : List PlannedUnit) (p q : Pool UnitReport) : Prop :=
  ∃ ms, p.moves ms = some q ∧ ∀ i result, (i, result) ∈ p.outcomes ms →
    ∀ u, planned[i]? = some u → u.MayEnd result

theorem Leads.refl (planned : List PlannedUnit) (p : Pool UnitReport) : Leads planned p p :=
  ⟨[], rfl, by simp [Pool.outcomes, Pool.log]⟩

theorem Leads.trans {planned : List PlannedUnit} {p q r : Pool UnitReport}
    (first : Leads planned p q) (second : Leads planned q r) : Leads planned p r := by
  obtain ⟨xs, before, own⟩ := first
  obtain ⟨ys, after, more⟩ := second
  refine ⟨xs ++ ys, ?_, ?_⟩
  · rw [Pool.moves_append, before]
    exact after
  · intro i result member
    rw [Pool.outcomes, Pool.log_append _ _ _ before, List.mem_append] at member
    exact member.elim (own i result) (more i result)

/-- Moves of one worker, among wishes to stop, lead from a pool to another. -/
structure Shift (planned : List PlannedUnit) (w : Nat) (p q : Pool UnitReport) : Prop where
  leads : Leads planned p q
  others : ∀ v, v ≠ w → q.workers[v]? = p.workers[v]?
  queue : q.queue <:+ p.queue

namespace Shift

variable {planned : List PlannedUnit} {w : Nat} {p q r : Pool UnitReport}

theorem refl (p : Pool UnitReport) : Shift planned w p p :=
  ⟨.refl planned p, fun _ _ => rfl, List.suffix_refl _⟩

theorem trans (first : Shift planned w p q) (second : Shift planned w q r) :
    Shift planned w p r := by
  refine ⟨first.leads.trans second.leads, fun v other => ?_, second.queue.trans first.queue⟩
  rw [second.others v other, first.others v other]

theorem tryMove (p : Pool UnitReport) {m : Move UnitReport}
    (mine : ∀ v, m.worker? = some v → v = w)
    (own : ∀ i result, p.outcomeOf m = some (i, result) →
      ∀ u, planned[i]? = some u → u.MayEnd result) :
    Shift planned w p (p.tryMove m) := by
  cases made : p.move m with
  | none => simpa [Pool.tryMove, made] using refl p
  | some q =>
    obtain ⟨others, queue⟩ := (Pool.step_of_move made).frame
    rw [show p.tryMove m = q by simp [Pool.tryMove, made]]
    refine ⟨⟨[m], by simp [Pool.moves, made], fun i result ran => own i result ?_⟩,
      fun v other => others v fun same => other (mine v same), queue⟩
    simpa [Pool.outcomes, Pool.log, made] using ran

end Shift

section

variable {σ : Type} {planned : List PlannedUnit} {w : Nat} {p : Pool UnitReport}

theorem shift_heed (planned : List PlannedUnit) (w : Nat) (p : Pool UnitReport)
    (s : Session σ) : Shift planned w p (heed p s) := by
  unfold heed
  split
  · exact .tryMove p (by simp [Move.worker?]) (by simp [Pool.outcomeOf])
  · exact .refl p

theorem heed_workers (p : Pool UnitReport) (s : Session σ) :
    (heed p s).workers = p.workers ∧ (heed p s).queue = p.queue := by
  unfold heed
  split <;> exact ⟨rfl, rfl⟩

/-- Where a worker stands after it has looked and tried to take a unit. -/
inductive Looked (p q : Pool UnitReport) (w : Nat) : Prop
  | idle (x : Worker UnitReport) (here : q.workers[w]? = some x) (done : x.isDone = true)
  | busy (i : Nat) (rest : List Nat) (first : p.queue = i :: rest) (queue : q.queue = rest)
      (here : q.workers[w]? = some (.running i))

theorem setWorker_self {x y : Worker UnitReport} (here : p.workers[w]? = some x) :
    (p.setWorker w y).workers[w]? = some y := by
  obtain ⟨within, _⟩ := List.getElem?_eq_some_iff.mp here
  exact List.getElem?_set_self within

theorem looked (at_look : p.workers[w]? = some .looking ∨ p.workers[w]? = some .crashed) :
    Looked p ((p.tryMove (.look w)).tryMove (.take w)) w := by
  rcases at_look with at_look | crashed
  · cases stop : p.cancelled with
    | true =>
      have look : p.tryMove (.look w) = p.setWorker w .stopped := by
        simp [Pool.tryMove, Pool.move, at_look, stop]
      have here := setWorker_self (y := .stopped) at_look
      refine .idle .stopped ?_ rfl
      rw [look]
      simp only [Pool.tryMove, Pool.move, here, Option.getD_none]
    | false =>
      have look : p.tryMove (.look w) = p.setWorker w .taking := by
        simp [Pool.tryMove, Pool.move, at_look, stop]
      have here := setWorker_self (y := .taking) at_look
      cases queue : p.queue with
      | nil =>
        have take : (p.setWorker w .taking).tryMove (.take w) =
            (p.setWorker w .taking).setWorker w .stopped := by
          simp [Pool.tryMove, Pool.move, here, show (p.setWorker w .taking).queue = [] from queue]
        rw [look, take]
        exact .idle .stopped (setWorker_self here) rfl
      | cons i rest =>
        have take : (p.setWorker w .taking).tryMove (.take w) =
            { (p.setWorker w .taking).setWorker w (.running i) with queue := rest } := by
          simp [Pool.tryMove, Pool.move, here,
            show (p.setWorker w .taking).queue = i :: rest from queue]
        rw [look, take]
        exact .busy i rest queue rfl (setWorker_self here)
  · refine .idle .crashed ?_ rfl
    simp [Pool.tryMove, Pool.move, crashed]

theorem handedIn {i : Nat} (at_run : p.workers[w]? = some (.running i))
    (report : Option UnitReport) :
    let q := (p.tryMove (.run w report)).tryMove (.handIn w)
    (q.workers[w]? = some .looking ∨ q.workers[w]? = some .crashed) ∧ q.queue = p.queue := by
  cases report with
  | none =>
    have run : p.tryMove (.run w none) = p.setWorker w .crashed := by
      simp [Pool.tryMove, Pool.move, at_run]
    have here := setWorker_self (y := .crashed) at_run
    simp only [run]
    simp only [Pool.tryMove, Pool.move, here, Option.getD_none]
    exact ⟨.inr trivial, rfl⟩
  | some r =>
    have run : p.tryMove (.run w (some r)) = p.setWorker w (.reporting i r) := by
      simp [Pool.tryMove, Pool.move, at_run]
    have here := setWorker_self (y := .reporting i r) at_run
    simp only [run]
    simp only [Pool.tryMove, Pool.move, here, Option.getD_some]
    exact ⟨.inl (setWorker_self here), rfl⟩

/-- With units enough to go on, a worker works until it is done. The queue grows
shorter with each round. -/
theorem runWorker_done (client : Client σ) (config : ScanConfig) (clock : Nat → Moment)
    (fuel : Nat) :
    ∀ (p : Pool UnitReport) (s : Session σ), p.queue.length < fuel →
      (∀ i ∈ p.queue, i < planned.length) →
      (p.workers[w]? = some .looking ∨ p.workers[w]? = some .crashed) →
      Shift planned w p (runWorker client config clock planned w fuel p s).1 ∧
        ∃ x, (runWorker client config clock planned w fuel p s).1.workers[w]? = some x ∧
          x.isDone = true := by
  induction fuel with
  | zero =>
    intro p s short
    omega
  | succ fuel ih =>
    intro p s short listed at_look
    obtain ⟨workers, queue⟩ := heed_workers p s
    have heeded := shift_heed planned w p s
    rw [← workers] at at_look
    have moved : Shift planned w p (((heed p s).tryMove (.look w)).tryMove (.take w)) :=
      (heeded.trans (.tryMove _ (by simp [Move.worker?]) (by simp [Pool.outcomeOf]))).trans
        (.tryMove _ (by simp [Move.worker?]) (by simp [Pool.outcomeOf]))
    rw [runWorker]
    cases looked at_look with
    | idle x here done =>
      simp only [here]
      cases x with
      | stopped => exact ⟨moved, _, here, rfl⟩
      | crashed => exact ⟨moved, _, here, rfl⟩
      | looking => cases done
      | taking => cases done
      | running => cases done
      | reporting => cases done
    | busy i rest first waiting here =>
      rw [queue] at first
      obtain ⟨u, present⟩ : ∃ u, planned[i]? = some u :=
        ⟨_, List.getElem?_eq_getElem (listed i (by simp [first]))⟩
      simp only [here, present]
      have own : ∀ j result,
          Pool.outcomeOf (((heed p s).tryMove (.look w)).tryMove (.take w))
            (.run w (u.run client config (clock (2 * i)) (clock (2 * i + 1)) s).1) =
              some (j, result) →
          ∀ v, planned[j]? = some v → v.MayEnd result := by
        intro j result ran v other
        simp only [Pool.outcomeOf, here, Option.some.injEq, Prod.mk.injEq] at ran
        obtain ⟨rfl, rfl⟩ := ran
        obtain rfl : u = v := Option.some.inj (present.symm.trans other)
        exact u.run_mayEnd client config _ _ s
      have ran := (moved.trans (.tryMove _ (by simp [Move.worker?]) own)).trans
        (.tryMove _ (m := .handIn w) (by simp [Move.worker?]) (by simp [Pool.outcomeOf]))
      obtain ⟨again, kept⟩ := handedIn here
        (u.run client config (clock (2 * i)) (clock (2 * i + 1)) s).1
      rw [waiting] at kept
      rw [first] at short listed
      obtain ⟨went, last, there, done⟩ := ih _
        (u.run client config (clock (2 * i)) (clock (2 * i + 1)) s).2
        (by rw [kept]; simpa using short)
        (by rw [kept]; exact fun j member => listed j (List.mem_cons_of_mem i member)) again
      exact ⟨ran.trans went, last, there, done⟩

/-- One worker after the other, each works until it is done. -/
theorem runPool_over (client : Client σ) (config : ScanConfig) (clock : Nat → Moment)
    (ws : List Nat) :
    ∀ (p : Pool UnitReport) (s : Session σ), ws.Nodup → p.queue <:+ List.range planned.length →
      (∀ w ∈ ws, p.workers[w]? = some .looking) →
      (∀ v x, v ∉ ws → p.workers[v]? = some x → x.isDone = true) →
      Leads planned p (runPool client config clock planned ws p s).1 ∧
        (runPool client config clock planned ws p s).1.isOver = true := by
  induction ws with
  | nil =>
    intro p s _ _ _ done
    refine ⟨(shift_heed planned 0 p s).leads, List.all_eq_true.mpr fun x member => ?_⟩
    rw [runPool, (heed_workers p s).1] at member
    obtain ⟨v, here⟩ := List.mem_iff_getElem?.mp member
    exact done v x (by simp) here
  | cons w rest ih =>
    intro p s distinct queue waiting done
    have apart := List.nodup_cons.mp distinct
    have short : p.queue.length < planned.length + 1 := by
      have bound := queue.length_le
      simp only [List.length_range] at bound
      omega
    have listed : ∀ i ∈ p.queue, i < planned.length :=
      fun i member => List.mem_range.mp (queue.subset member)
    obtain ⟨shift, last, there, finished⟩ := runWorker_done client config clock
      (planned.length + 1) p s short listed (.inl (waiting w List.mem_cons_self))
    have still_waiting : ∀ v ∈ rest,
        (runWorker client config clock planned w (planned.length + 1) p s).1.workers[v]? =
          some .looking := by
      intro v member
      rw [shift.others v fun same => apart.1 (same ▸ member)]
      exact waiting v (List.mem_cons_of_mem w member)
    have still_done : ∀ v x, v ∉ rest →
        (runWorker client config clock planned w (planned.length + 1) p s).1.workers[v]? = some x →
          x.isDone = true := by
      intro v x outside here
      by_cases same : v = w
      · subst same
        obtain rfl : last = x := Option.some.inj (there.symm.trans here)
        exact finished
      · rw [shift.others v same] at here
        exact done v x (by simp [same, outside]) here
    obtain ⟨leads, ended⟩ := ih _
      (runWorker client config clock planned w (planned.length + 1) p s).2
      apart.2 (shift.queue.trans queue) still_waiting still_done
    exact ⟨shift.leads.trans leads, ended⟩

/-- A scan that runs on its own is an interleaving of its workers. -/
theorem runUnits_interleaving (client : Client σ) (config : ScanConfig) (clock : Nat → Moment)
    (planned : List PlannedUnit) (s : Session σ) :
    ∃ ms p, Interleaving planned (config.workerCount planned.length) ms p ∧
      (runUnits client config clock planned s).1 = entries planned p := by
  obtain ⟨⟨ms, reached, own⟩, ended⟩ := runPool_over client config clock
    (List.range (config.workerCount planned.length))
    (.start planned.length (config.workerCount planned.length)) s List.nodup_range
    (List.suffix_refl _)
    (fun w member => by
      rw [Pool.start, List.getElem?_replicate, if_pos (List.mem_range.mp member)])
    (fun v x outside here => by
      rw [Pool.start, List.getElem?_replicate,
        if_neg (fun below => outside (List.mem_range.mpr below))] at here
      cases here)
  exact ⟨ms, _, ⟨reached, ended, own⟩, rfl⟩

end

end CloudAudit
