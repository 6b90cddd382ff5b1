import CloudAudit.Proofs.ProgramPath
import Mathlib.Data.List.Perm.Basic

set_option autoImplicit false

/- Programs that take turns at one client, in any order of their calls. -/
namespace CloudAudit

variable {α σ : Type}

/-- A program under way, or none when it crashed. -/
abbrev Thread (α : Type) := Option (Program α)

/-- Threads that share a client run to their ends. Whichever thread is not at
its end may make the next call. -/
inductive Turns (client : Client σ) :
    List (Thread α) → Session σ → List (Option α) → Session σ → Prop
  | ended (results : List (Option α)) (s : Session σ) :
      Turns client (results.map (Option.map .done)) s results s
  | turn {before after : List (Thread α)} {c : VendorCall} {next : Answer → Program α}
      {s t : Session σ} {results : List (Option α)}
      (rest : Turns client (before ++ (s.ask client c).1.map next :: after)
        (s.ask client c).2 results t) :
      Turns client (before ++ some (.ask c next) :: after) s results t

/-- The part of one thread in a run: what it came to, and its own exchanges. -/
structure Part (α : Type) where
  result : Option α
  log : List Exchange

/-- A thread goes a way of its program, or had crashed before. -/
def Part.Of (thread : Thread α) (part : Part α) : Prop :=
  match thread with
  | some p => Program.Path p part.log part.result
  | none => part = ⟨none, []⟩

theorem Part.of_over (results : List (Option α)) :
    List.Forall₂ Part.Of (results.map (Option.map .done)) (results.map fun r => ⟨r, []⟩) := by
  induction results with
  | nil => exact .nil
  | cons result rest ih =>
    refine .cons ?_ ih
    cases result with
    | none => rfl
    | some a => exact .done a

/-- The thread that makes the first call owns that call. -/
theorem Part.of_turn {before after : List (Thread α)} {c : VendorCall}
    {next : Answer → Program α} {reply : Option Answer} {parts : List (Part α)}
    (later : List.Forall₂ Part.Of (before ++ reply.map next :: after) parts) :
    ∃ first last part, parts = first ++ part :: last ∧
      List.Forall₂ Part.Of (before ++ some (.ask c next) :: after)
        (first ++ ⟨part.result, (c, reply) :: part.log⟩ :: last) := by
  induction before generalizing parts with
  | nil =>
    cases later with
    | @cons _ part _ last here others =>
      refine ⟨[], last, part, rfl, .cons ?_ others⟩
      cases reply with
      | none =>
        have same : part = ⟨none, []⟩ := here
        subst same
        exact .crash c next
      | some answer => exact .ask here
  | cons thread rest ih =>
    cases later with
    | @cons _ head _ tail here others =>
      obtain ⟨first, last, part, rfl, matched⟩ := ih others
      exact ⟨head :: first, last, part, rfl, .cons here matched⟩

/-- However the calls of threads mix, each thread goes a way of its program, and
the calls of all ways are the calls that were made. -/
theorem Turns.parts {client : Client σ} {threads : List (Thread α)} {s t : Session σ}
    {results : List (Option α)} (turns : Turns client threads s results t) :
    ∃ parts : List (Part α), List.Forall₂ Part.Of threads parts ∧
      results = parts.map (·.result) ∧
      t.calls.Perm ((parts.flatMap (·.log)).map (·.1) ++ s.calls) ∧
      ∀ e ∈ parts.flatMap (·.log), client.Replies e := by
  induction turns with
  | ended results s =>
    have silent : (results.map fun r => (⟨r, []⟩ : Part α)).flatMap (·.log) = [] := by
      rw [List.flatMap_eq_nil_iff]
      intro part member
      obtain ⟨_, _, rfl⟩ := List.mem_map.mp member
      rfl
    refine ⟨_, Part.of_over results, by simp [Function.comp_def], ?_, ?_⟩
    · rw [silent]
      exact .refl _
    · rw [silent]
      intro e member
      cases member
  | @turn before after c next s t results rest ih =>
    obtain ⟨parts, later, rfl, calls, known⟩ := ih
    obtain ⟨first, last, part, rfl, matched⟩ := Part.of_turn (c := c) later
    refine ⟨_, matched, by simp, ?_, ?_⟩
    · rw [Session.ask_calls] at calls
      refine calls.trans ?_
      simp only [List.flatMap_append, List.flatMap_cons, List.map_append, List.map_cons,
        List.append_assoc, List.cons_append]
      refine .append_left _ ?_
      simp only [← List.append_assoc]
      exact List.perm_middle
    · intro e member
      simp only [List.flatMap_append, List.flatMap_cons, List.mem_append, List.cons_append,
        List.mem_cons] at member known
      rcases member with inFirst | rfl | inRest
      · exact known e (.inl inFirst)
      · exact s.ask_replies client c
      · exact known e (.inr inRest)

/-- One thread may run to its end before the others go on. -/
theorem Turns.run_thread (client : Client σ) (before after : List (Thread α)) (p : Program α)
    {s t : Session σ} {results : List (Option α)}
    (rest : Turns client (before ++ (p.run client s).1.map .done :: after) (p.run client s).2
      results t) :
    Turns client (before ++ some p :: after) s results t := by
  induction p generalizing s with
  | done a => exact rest
  | ask c next ih =>
    refine .turn ?_
    simp only [Program.run] at rest
    rcases asked : s.ask client c with ⟨reply, u⟩
    rw [asked] at rest
    cases reply with
    | none => exact rest
    | some answer => exact ih answer rest

/-- Programs one after the other, a crash ending only its own. -/
def Program.runAll (client : Client σ) :
    List (Program α) → Session σ → List (Option α) × Session σ
  | [], s => ([], s)
  | p :: rest, s =>
    let (result, s) := p.run client s
    let (results, s) := runAll client rest s
    (result :: results, s)

theorem Turns.runAll (client : Client σ) (programs : List (Program α)) :
    ∀ (ended : List (Option α)) (s : Session σ),
      Turns client (ended.map (Option.map .done) ++ programs.map some) s
        (ended ++ (Program.runAll client programs s).1) (Program.runAll client programs s).2 := by
  induction programs with
  | nil =>
    intro ended s
    simpa [Program.runAll] using Turns.ended ended s
  | cons p rest ih =>
    intro ended s
    apply Turns.run_thread
    have later := ih (ended ++ [(p.run client s).1]) (p.run client s).2
    simpa only [Program.runAll, List.map_append, List.map_cons, List.map_nil, List.append_assoc,
      List.cons_append, List.nil_append] using later

end CloudAudit
