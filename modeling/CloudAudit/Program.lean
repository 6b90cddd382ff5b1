import CloudAudit.Vendor

/-!
Programs that ask a vendor: a value, or a call and what to do with its answer. Keeping the calls
visible lets programs run one after the other or call by call in turns.
-/

namespace CloudAudit

inductive Program (α : Type) where
  | done (a : α)
  | ask (c : VendorCall) (next : Answer → Program α)

namespace Program

variable {α β σ : Type}

def bind : Program α → (α → Program β) → Program β
  | done a, f => f a
  | ask c next, f => ask c fun answer => bind (next answer) f

instance : Monad Program where
  pure := done
  bind := bind

/-- Runs a program to its end, or to the crash of its client. -/
def run (client : Client σ) : Program α → Session σ → Option α × Session σ
  | done a, s => (some a, s)
  | ask c next, s =>
    match s.ask client c with
    | (some answer, s) => run client (next answer) s
    | (none, s) => (none, s)

/-- The value of a program whose calls are answered by a function. -/
def eval (answer : VendorCall → Answer) : Program α → α
  | done a => a
  | ask c next => eval answer (next (answer c))

/-- The calls of a program answered by a function, in order. -/
def trace (answer : VendorCall → Answer) : Program α → List VendorCall
  | done _ => []
  | ask c next => c :: trace answer (next (answer c))

theorem run_bind (client : Client σ) (p : Program α) (f : α → Program β) (s : Session σ) :
    run client (p.bind f) s = match run client p s with
      | (some a, s) => run client (f a) s
      | (none, s) => (none, s) := by
  induction p generalizing s with
  | done a => rfl
  | ask c next ih =>
    simp only [bind, run]
    cases s.ask client c with
    | mk answer s =>
      cases answer with
      | none => rfl
      | some answer => exact ih answer s

theorem eval_bind (answer : VendorCall → Answer) (p : Program α) (f : α → Program β) :
    eval answer (p.bind f) = eval answer (f (eval answer p)) := by
  induction p with
  | done a => rfl
  | ask c next ih => exact ih (answer c)

theorem trace_bind (answer : VendorCall → Answer) (p : Program α) (f : α → Program β) :
    trace answer (p.bind f) = trace answer p ++ trace answer (f (eval answer p)) := by
  induction p with
  | done a => rfl
  | ask c next ih => exact congrArg (c :: ·) (ih (answer c))

end Program

end CloudAudit
