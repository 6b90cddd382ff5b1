import CloudAudit.Program
import Mathlib.Data.List.Forall2

set_option autoImplicit false

/- Ways through a program, whatever answers its calls. A client that takes part
in several programs at a time sees their calls mixed; each program alone still
goes one of its ways. -/
namespace CloudAudit

/-- A call and the answer that came back, none when the client crashed. -/
abbrev Exchange := VendorCall × Option Answer

/-- The client gives this answer to this call in one of its states. -/
def Client.Replies {σ : Type} (client : Client σ) (e : Exchange) : Prop :=
  ∃ state, (client.reply e.1 state).1.answer = e.2

/-- A client that may fail a call but always comes back. -/
def Client.NeverCrashes {σ : Type} (client : Client σ) : Prop :=
  ∀ c state, (client.reply c state).1.answer ≠ none

/-- A client whose answer depends on the call alone. -/
def Client.AnswersBy {σ : Type} (client : Client σ) (answer : VendorCall → Answer) : Prop :=
  ∀ c state, (client.reply c state).1.answer = some (answer c)

theorem Client.NeverCrashes.answered {σ : Type} {client : Client σ}
    (quiet : client.NeverCrashes) {e : Exchange} (known : client.Replies e) : e.2 ≠ none := by
  obtain ⟨state, same⟩ := known
  rw [← same]
  exact quiet e.1 state

theorem Client.AnswersBy.replied {σ : Type} {client : Client σ} {answer : VendorCall → Answer}
    (fixed : client.AnswersBy answer) {e : Exchange} (known : client.Replies e) :
    e.2 = some (answer e.1) := by
  obtain ⟨state, same⟩ := known
  rw [← same]
  exact fixed e.1 state

theorem Client.AnswersBy.neverCrashes {σ : Type} {client : Client σ}
    {answer : VendorCall → Answer} (fixed : client.AnswersBy answer) : client.NeverCrashes := by
  intro c state
  rw [fixed c state]
  exact Option.some_ne_none _

theorem Client.ofFunction_answersBy (id : String) (answer : VendorCall → Answer) :
    (Client.ofFunction id answer).AnswersBy answer := fun _ _ => rfl

theorem Session.ask_replies {σ : Type} (client : Client σ) (s : Session σ) (c : VendorCall) :
    client.Replies (c, (s.ask client c).1) := ⟨s.state, rfl⟩

theorem Session.ask_calls {σ : Type} (client : Client σ) (s : Session σ) (c : VendorCall) :
    (s.ask client c).2.calls = c :: s.calls := rfl

namespace Program

variable {α β : Type}

/-- A way through a program: its exchanges and its value, none at a crash. -/
inductive Path : Program α → List Exchange → Option α → Prop
  | done (a : α) : Path (.done a) [] (some a)
  | crash (c : VendorCall) (next : Answer → Program α) : Path (.ask c next) [(c, none)] none
  | ask {c : VendorCall} {next : Answer → Program α} {answer : Answer} {log : List Exchange}
      {result : Option α} (rest : Path (next answer) log result) :
      Path (.ask c next) ((c, some answer) :: log) result

/-- A way through a sequence to its value splits where the first part ends. -/
theorem Path.split {p : Program α} {f : α → Program β} {log : List Exchange} {b : β}
    (way : Path (p.bind f) log (some b)) :
    ∃ a first second, log = first ++ second ∧ Path p first (some a) ∧
      Path (f a) second (some b) := by
  induction p generalizing log with
  | done a => exact ⟨a, [], log, rfl, .done a, way⟩
  | ask c next ih =>
    cases way with
    | ask rest =>
      obtain ⟨a, first, second, rfl, before, after⟩ := ih _ rest
      exact ⟨a, _ :: first, second, rfl, .ask before, after⟩

/-- A crash leaves its mark. -/
theorem Path.exists_crash {p : Program α} {log : List Exchange} (way : Path p log none) :
    ∃ c, (c, none) ∈ log := by
  induction p generalizing log with
  | done a => cases way
  | ask c next ih =>
    cases way with
    | crash => exact ⟨c, List.mem_cons_self⟩
    | ask rest =>
      obtain ⟨lost, member⟩ := ih _ rest
      exact ⟨lost, List.mem_cons_of_mem _ member⟩

/-- Answers by a function leave a program one way. -/
theorem Path.determined {answer : VendorCall → Answer} {p : Program α} {log : List Exchange}
    {result : Option α} (way : Path p log result)
    (fixed : ∀ e ∈ log, e.2 = some (answer e.1)) :
    result = some (p.eval answer) ∧ log.map (·.1) = p.trace answer := by
  induction p generalizing log with
  | done a =>
    cases way
    exact ⟨rfl, rfl⟩
  | ask c next ih =>
    cases way with
    | crash =>
      have impossible := fixed _ List.mem_cons_self
      cases impossible
    | ask rest =>
      obtain ⟨here, later⟩ := List.forall_mem_cons.mp fixed
      obtain ⟨value, calls⟩ := ih _ rest later
      have same := Option.some.inj here
      dsimp only at same
      subst same
      exact ⟨value, congrArg (c :: ·) calls⟩

/-- A program that has a client for itself goes one of its ways. -/
theorem run_path {σ : Type} (client : Client σ) (p : Program α) (s : Session σ) :
    ∃ log, Path p log (p.run client s).1 ∧
      (p.run client s).2.calls = (log.map (·.1)).reverse ++ s.calls ∧
      ∀ e ∈ log, client.Replies e := by
  induction p generalizing s with
  | done a => exact ⟨[], .done a, rfl, by simp⟩
  | ask c next ih =>
    have replies := s.ask_replies client c
    have calls := s.ask_calls client c
    simp only [run]
    rcases asked : s.ask client c with ⟨reply, t⟩
    rw [asked] at replies calls
    cases reply with
    | none => exact ⟨_, .crash c next, by simpa using calls, by simpa using replies⟩
    | some answer =>
      obtain ⟨log, way, later, known⟩ := ih answer t
      refine ⟨_, .ask way, ?_, List.forall_mem_cons.mpr ⟨replies, known⟩⟩
      rw [show t.calls = c :: s.calls from calls] at later
      simp only [later, List.map_cons, List.reverse_cons, List.append_assoc,
        List.singleton_append]

end Program

end CloudAudit
