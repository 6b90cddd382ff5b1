/-!
A pool of workers that take units from a shared queue. Looking whether the scan was cancelled,
taking a unit, running it and handing in its report are separate moves, so that the moves of several
workers can mix in any order, and cancelling may come between any two.
-/

namespace CloudAudit

/-- What a worker does next. A unit is known by its position. -/
inductive Worker (ρ : Type) where
  | looking
  | taking
  | running (position : Nat)
  | reporting (position : Nat) (report : ρ)
  | stopped
  | crashed
  deriving Repr

namespace Worker

/-- Whether a worker makes no more moves. -/
def isDone {ρ : Type} : Worker ρ → Bool
  | stopped | crashed => true
  | _ => false

end Worker

structure Pool (ρ : Type) where
  /-- Positions of units nobody has taken, in order. -/
  queue : List Nat
  workers : List (Worker ρ)
  /-- Reports handed in, latest first. -/
  finished : List (Nat × ρ) := []
  cancelled : Bool := false
  deriving Repr

/-- One move. Running a unit gives its report, or none when it crashes. -/
inductive Move (ρ : Type) where
  | look (worker : Nat)
  | take (worker : Nat)
  | run (worker : Nat) (report : Option ρ)
  | handIn (worker : Nat)
  | cancel
  deriving Repr

namespace Pool

variable {ρ : Type}

/-- A pool before the first move: all units in the queue, all workers about to look. -/
def start (units workers : Nat) : Pool ρ :=
  { queue := List.range units, workers := List.replicate workers .looking }

def setWorker (p : Pool ρ) (worker : Nat) (state : Worker ρ) : Pool ρ :=
  { p with workers := p.workers.set worker state }

/-- The pool after a move; none when the move cannot be made. -/
def move (p : Pool ρ) : Move ρ → Option (Pool ρ)
  | .look w => match p.workers[w]? with
    | some .looking => some (p.setWorker w (if p.cancelled then .stopped else .taking))
    | _ => none
  | .take w => match p.workers[w]?, p.queue with
    | some .taking, [] => some (p.setWorker w .stopped)
    | some .taking, position :: rest => some { p.setWorker w (.running position) with queue := rest }
    | _, _ => none
  | .run w report => match p.workers[w]?, report with
    | some (.running position), some r => some (p.setWorker w (.reporting position r))
    | some (.running _), none => some (p.setWorker w .crashed)
    | _, _ => none
  | .handIn w => match p.workers[w]? with
    | some (.reporting position r) =>
      some { p.setWorker w .looking with finished := (position, r) :: p.finished }
    | _ => none
  | .cancel => some { p with cancelled := true }

/-- The pool after moves in order; none when one of them cannot be made. -/
def moves (p : Pool ρ) : List (Move ρ) → Option (Pool ρ)
  | [] => some p
  | m :: rest => (p.move m).bind fun q => q.moves rest

/-- Whether all workers are done. -/
def isOver (p : Pool ρ) : Bool := p.workers.all Worker.isDone

/-- What became of the unit at a position, once all workers are done. -/
inductive Fate (ρ : Type) where
  | reported (report : ρ)
  | crashed
  /-- Never taken, because the scan was cancelled. -/
  | cancelled
  /-- Never taken, because every worker had crashed. -/
  | abandoned
  deriving Repr

def fate (p : Pool ρ) (position : Nat) : Fate ρ :=
  match p.finished.lookup position with
  | some r => .reported r
  | none =>
    if p.queue.contains position then if p.cancelled then .cancelled else .abandoned
    else .crashed

end Pool

end CloudAudit
