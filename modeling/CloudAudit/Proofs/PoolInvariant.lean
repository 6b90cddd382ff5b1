import CloudAudit.Scan.Pool
import Mathlib.Data.List.Perm.Basic

set_option autoImplicit false

/- What every mix of moves keeps of a pool: each unit is queued, taken and under
way, or done with exactly one outcome. -/
namespace CloudAudit.Pool

variable {ρ β : Type}

/-- The moves that can be made, each with the pool it leads to. -/
inductive Step (p : Pool ρ) : Move ρ → Pool ρ → Prop
  | leave {w : Nat} (at_look : p.workers[w]? = some .looking) (stop : p.cancelled = true) :
      Step p (.look w) (p.setWorker w .stopped)
  | proceed {w : Nat} (at_look : p.workers[w]? = some .looking) (go : p.cancelled = false) :
      Step p (.look w) (p.setWorker w .taking)
  | starve {w : Nat} (at_take : p.workers[w]? = some .taking) (dry : p.queue = []) :
      Step p (.take w) (p.setWorker w .stopped)
  | take {w i : Nat} {rest : List Nat} (at_take : p.workers[w]? = some .taking)
      (first : p.queue = i :: rest) :
      Step p (.take w) { p.setWorker w (.running i) with queue := rest }
  | finish {w i : Nat} {r : ρ} (at_run : p.workers[w]? = some (.running i)) :
      Step p (.run w (some r)) (p.setWorker w (.reporting i r))
  | crash {w i : Nat} (at_run : p.workers[w]? = some (.running i)) :
      Step p (.run w none) (p.setWorker w .crashed)
  | handIn {w i : Nat} {r : ρ} (at_report : p.workers[w]? = some (.reporting i r)) :
      Step p (.handIn w) { p.setWorker w .looking with finished := (i, r) :: p.finished }
  | cancel : Step p .cancel { p with cancelled := true }

theorem step_of_move {p q : Pool ρ} {m : Move ρ} (made : p.move m = some q) : Step p m q := by
  cases m with
  | look w =>
    simp only [move] at made
    split at made
    · rename_i at_look
      cases stop : p.cancelled with
      | true =>
        obtain rfl : p.setWorker w .stopped = q := by simpa [stop] using made
        exact .leave at_look stop
      | false =>
        obtain rfl : p.setWorker w .taking = q := by simpa [stop] using made
        exact .proceed at_look stop
    · cases made
  | take w =>
    simp only [move] at made
    split at made
    · rename_i at_take dry
      cases made
      exact .starve at_take dry
    · rename_i at_take first
      cases made
      exact .take at_take first
    · cases made
  | run w report =>
    simp only [move] at made
    split at made
    · rename_i at_run
      cases made
      exact .finish at_run
    · rename_i at_run
      cases made
      exact .crash at_run
    · cases made
  | handIn w =>
    simp only [move] at made
    split at made
    · rename_i at_report
      cases made
      exact .handIn at_report
    · cases made
  | cancel =>
    cases made
    exact .cancel

/-- What moves let see, in order, as far as they can be made. -/
def log (see : Pool ρ → Move ρ → Option β) (p : Pool ρ) : List (Move ρ) → List β
  | [] => []
  | m :: rest => match p.move m with
    | some q => (see p m).toList ++ log see q rest
    | none => []

/-- The unit a move takes from the queue. -/
def takenBy (p : Pool ρ) : Move ρ → Option Nat
  | .take w => match p.workers[w]? with
    | some .taking => p.queue.head?
    | _ => none
  | _ => none

/-- The unit a move runs, with its report or none for a crash. -/
def outcomeOf (p : Pool ρ) : Move ρ → Option (Nat × Option ρ)
  | .run w report => match p.workers[w]? with
    | some (.running i) => some (i, report)
    | _ => none
  | _ => none

/-- Units taken from the queue, in order. -/
def taken (p : Pool ρ) (ms : List (Move ρ)) : List Nat := p.log takenBy ms

/-- Units run, each with its report or none for a crash. -/
def outcomes (p : Pool ρ) (ms : List (Move ρ)) : List (Nat × Option ρ) := p.log outcomeOf ms

/-- The unit a worker runs. -/
def running? : Worker ρ → Option Nat
  | .running i => some i
  | _ => none

/-- The report a worker is about to hand in. -/
def reporting? : Worker ρ → Option (Nat × ρ)
  | .reporting i r => some (i, r)
  | _ => none

/-- The report among an outcome. -/
def reported? : Nat × Option ρ → Option (Nat × ρ)
  | (i, some r) => some (i, r)
  | (_, none) => none

/-- After moves from `units` queued units, with what was taken and run so far. -/
structure Invariant (units : Nat) (taken : List Nat) (outcomes : List (Nat × Option ρ))
    (p : Pool ρ) : Prop where
  /-- Units leave the queue from its front, in order. -/
  queued : taken ++ p.queue = List.range units
  /-- A unit taken is under way or has one outcome. -/
  under_way : taken.Perm (p.workers.filterMap running? ++ outcomes.map (·.1))
  /-- Reports are on their way or handed in, none twice and none lost. -/
  handed_in : (outcomes.filterMap reported?).Perm (p.workers.filterMap reporting? ++ p.finished)
  /-- A worker stops when the scan is cancelled or the queue is dry. -/
  stops : Worker.stopped ∈ p.workers → p.cancelled = true ∨ p.queue = []
  /-- A worker crashes with a unit only. -/
  crashes : Worker.crashed ∈ p.workers → ∃ i, (i, none) ∈ outcomes

theorem start_invariant (units workers : Nat) :
    Invariant units [] [] (start units workers : Pool ρ) := by
  refine ⟨rfl, ?_, ?_, ?_, ?_⟩
  · simp [start, running?, List.filterMap_replicate]
  · simp [start, reporting?, List.filterMap_replicate]
  · intro stopped
    simp [start, List.mem_replicate] at stopped
  · intro crashed
    simp [start, List.mem_replicate] at crashed

section

variable {α γ : Type} {f : α → Option γ} {l : List α} {w : Nat} {a b : α} {x : γ}
  {known passed : List γ}

/-- Changing one worker changes only its own share of what workers hold. -/
theorem filterMap_set (f : α → Option γ) (b : α) (at_w : l[w]? = some a) :
    ∃ others, (l.filterMap f).Perm ((f a).toList ++ others) ∧
      ((l.set w b).filterMap f).Perm ((f b).toList ++ others) := by
  obtain ⟨within, here⟩ := List.getElem?_eq_some_iff.mp at_w
  have around : ∀ c, ((l.take w ++ c :: l.drop (w + 1)).filterMap f).Perm
      ((f c).toList ++ ((l.take w).filterMap f ++ (l.drop (w + 1)).filterMap f)) := by
    intro c
    rw [List.filterMap_append, List.filterMap_cons]
    cases f c with
    | none => exact .refl _
    | some held => exact List.perm_middle
  have whole : l.take w ++ a :: l.drop (w + 1) = l := by
    rw [← here, List.getElem_cons_drop, List.take_append_drop]
  have before := around a
  have after := around b
  rw [whole] at before
  have changed := List.set_eq_take_append_cons_drop (l := l) (i := w) (a := b)
  rw [if_pos within] at changed
  rw [← changed] at after
  exact ⟨_, before, after⟩

theorem held_kept (at_w : l[w]? = some a) (free : f a = none) (still : f b = none)
    (counted : known.Perm (l.filterMap f ++ passed)) :
    known.Perm ((l.set w b).filterMap f ++ passed) := by
  obtain ⟨others, before, after⟩ := filterMap_set f b at_w
  rw [free] at before
  rw [still] at after
  exact counted.trans ((before.trans after.symm).append_right passed)

theorem held_gained (at_w : l[w]? = some a) (free : f a = none) (gained : f b = some x)
    (counted : known.Perm (l.filterMap f ++ passed)) :
    (known ++ [x]).Perm ((l.set w b).filterMap f ++ passed) := by
  obtain ⟨others, before, after⟩ := filterMap_set f b at_w
  rw [free] at before
  rw [gained] at after
  calc
    (known ++ [x]).Perm (x :: known) := List.perm_append_singleton x known
    List.Perm _ (x :: (l.filterMap f ++ passed)) := counted.cons x
    List.Perm _ (x :: (others ++ passed)) := (before.append_right passed).cons x
    List.Perm _ ((l.set w b).filterMap f ++ passed) := (after.append_right passed).symm

theorem held_passed (at_w : l[w]? = some a) (had : f a = some x) (freed : f b = none)
    (counted : known.Perm (l.filterMap f ++ passed)) :
    known.Perm ((l.set w b).filterMap f ++ x :: passed) := by
  obtain ⟨others, before, after⟩ := filterMap_set f b at_w
  rw [had] at before
  rw [freed] at after
  calc
    known.Perm (l.filterMap f ++ passed) := counted
    List.Perm _ (x :: (others ++ passed)) := before.append_right passed
    List.Perm _ (others ++ x :: passed) := List.perm_middle.symm
    List.Perm _ ((l.set w b).filterMap f ++ x :: passed) := (after.append_right _).symm

end

theorem mem_setWorker {p : Pool ρ} {w : Nat} {state x : Worker ρ}
    (member : x ∈ (p.setWorker w state).workers) (other : x ≠ state) : x ∈ p.workers :=
  (List.mem_or_eq_of_mem_set member).resolve_right other

theorem Step.invariant {units : Nat} {taken : List Nat} {outcomes : List (Nat × Option ρ)}
    {p q : Pool ρ} {m : Move ρ} (step : Step p m q) (inv : Invariant units taken outcomes p) :
    Invariant units (taken ++ (takenBy p m).toList) (outcomes ++ (outcomeOf p m).toList) q := by
  cases step with
  | leave at_look stop =>
    simp only [takenBy, outcomeOf, Option.toList_none, List.append_nil]
    refine ⟨inv.queued, held_kept at_look rfl rfl inv.under_way,
      held_kept at_look rfl rfl inv.handed_in, fun _ => .inl stop, fun crashed => ?_⟩
    exact inv.crashes (mem_setWorker crashed (by simp))
  | proceed at_look go =>
    simp only [takenBy, outcomeOf, Option.toList_none, List.append_nil]
    refine ⟨inv.queued, held_kept at_look rfl rfl inv.under_way,
      held_kept at_look rfl rfl inv.handed_in, fun stopped => ?_, fun crashed => ?_⟩
    · exact inv.stops (mem_setWorker stopped (by simp))
    · exact inv.crashes (mem_setWorker crashed (by simp))
  | starve at_take dry =>
    simp only [takenBy, at_take, dry, outcomeOf, List.head?_nil, Option.toList_none,
      List.append_nil]
    refine ⟨inv.queued, held_kept at_take rfl rfl inv.under_way,
      held_kept at_take rfl rfl inv.handed_in, fun _ => .inr dry, fun crashed => ?_⟩
    exact inv.crashes (mem_setWorker crashed (by simp))
  | take at_take first =>
    simp only [takenBy, at_take, first, outcomeOf, List.head?_cons, Option.toList_some,
      Option.toList_none, List.append_nil]
    have queued := inv.queued
    rw [first] at queued
    refine ⟨by simpa using queued, held_gained at_take rfl rfl inv.under_way,
      held_kept at_take rfl rfl inv.handed_in, fun stopped => ?_, fun crashed => ?_⟩
    · refine .inl ((inv.stops (mem_setWorker stopped (by simp))).resolve_right ?_)
      simp [first]
    · exact inv.crashes (mem_setWorker crashed (by simp))
  | @finish w i r at_run =>
    simp only [takenBy, outcomeOf, at_run, Option.toList_none, Option.toList_some,
      List.append_nil]
    refine ⟨inv.queued, ?_, ?_, fun stopped => ?_, fun crashed => ?_⟩
    · rw [List.map_append]
      have passed := held_passed (f := running?) (b := .reporting i r) at_run rfl rfl
        inv.under_way
      exact passed.trans ((List.perm_append_singleton _ _).symm.append_left _)
    · rw [List.filterMap_append]
      exact held_gained at_run rfl rfl inv.handed_in
    · exact inv.stops (mem_setWorker stopped (by simp))
    · obtain ⟨i, lost⟩ := inv.crashes (mem_setWorker crashed (by simp))
      exact ⟨i, List.mem_append_left _ lost⟩
  | @crash w i at_run =>
    simp only [takenBy, outcomeOf, at_run, Option.toList_none, Option.toList_some,
      List.append_nil]
    refine ⟨inv.queued, ?_, ?_, fun stopped => ?_, fun _ => ?_⟩
    · rw [List.map_append]
      have passed := held_passed (f := running?) (b := .crashed) at_run rfl rfl inv.under_way
      exact passed.trans ((List.perm_append_singleton _ _).symm.append_left _)
    · have unreported : [(i, (none : Option ρ))].filterMap reported? = [] := rfl
      rw [List.filterMap_append, unreported, List.append_nil]
      exact held_kept at_run rfl rfl inv.handed_in
    · exact inv.stops (mem_setWorker stopped (by simp))
    · exact ⟨i, List.mem_append_right _ (by simp)⟩
  | handIn at_report =>
    simp only [takenBy, outcomeOf, Option.toList_none, List.append_nil]
    refine ⟨inv.queued, held_kept at_report rfl rfl inv.under_way,
      held_passed at_report rfl rfl inv.handed_in, fun stopped => ?_, fun crashed => ?_⟩
    · exact inv.stops (mem_setWorker stopped (by simp))
    · exact inv.crashes (mem_setWorker crashed (by simp))
  | cancel =>
    simp only [takenBy, outcomeOf, Option.toList_none, List.append_nil]
    exact ⟨inv.queued, inv.under_way, inv.handed_in, fun _ => .inl rfl, inv.crashes⟩

theorem moves_invariant {units : Nat} (ms : List (Move ρ)) :
    ∀ {before : List Nat} {made : List (Nat × Option ρ)} {p q : Pool ρ},
      Invariant units before made p → p.moves ms = some q →
      Invariant units (before ++ p.taken ms) (made ++ p.outcomes ms) q := by
  induction ms with
  | nil =>
    intro before made p q inv reached
    cases reached
    simpa [taken, outcomes, log] using inv
  | cons m rest ih =>
    intro before made p q inv reached
    obtain ⟨next, first, reached⟩ := Option.bind_eq_some_iff.mp reached
    have after := ih ((step_of_move first).invariant inv) reached
    simpa only [taken, outcomes, log, first, List.append_assoc] using after

/-- Moves only ever set the wish to stop. -/
theorem cancelled_of_moves (ms : List (Move ρ)) :
    ∀ {p q : Pool ρ}, p.moves ms = some q →
      (q.cancelled = true ↔ p.cancelled = true ∨ Move.cancel ∈ ms) := by
  induction ms with
  | nil =>
    intro p q reached
    cases reached
    simp
  | cons m rest ih =>
    intro p q reached
    obtain ⟨next, first, reached⟩ := Option.bind_eq_some_iff.mp reached
    rw [ih reached]
    cases step_of_move first <;> simp [setWorker]

end CloudAudit.Pool
