import CloudAudit.Dispatch
import CloudAudit.Proofs.ProgramPath
import Mathlib.Data.ENat.Lattice

set_option autoImplicit false

/- How often an action asks its vendor, and with what answer it ends. The measure is a client left
alone with one call: what it answers when asked again and again, with nothing else in between. -/
namespace CloudAudit

/-- An outcome that may be another one next time. -/
inductive Transient : Option Answer → Prop where
  | error (operation message : String) :
    Transient (some (.error (.transient operation message)))

theorem transient_error_iff {e : VendorError} :
    Transient (some (.error e)) ↔ e.isTransient = true := by
  constructor
  · rintro ⟨operation, message⟩
    rfl
  · intro transient
    cases e with
    | transient operation message => exact .error operation message
    | fatal => cases transient

namespace Session

variable {σ : Type} (client : Client σ) (c : VendorCall)

/-- The session after a call was made a number of times. -/
def asked (s : Session σ) : Nat → Session σ
  | 0 => s
  | n + 1 => asked (s.ask client c).2 n

/-- What comes back after a call was made a number of times before. -/
def outcome (s : Session σ) (earlier : Nat) : Option Answer :=
  ((s.asked client c earlier).ask client c).1

/-- Which call is the first with an outcome that is not transient, counted from one. -/
noncomputable def settledAt (s : Session σ) : ℕ∞ :=
  ⨅ (n : Nat) (_ : ¬Transient (s.outcome client c n)), ((n + 1 : Nat) : ℕ∞)

theorem asked_calls (s : Session σ) (n : Nat) :
    (s.asked client c n).calls = List.replicate n c ++ s.calls := by
  induction n generalizing s with
  | zero => rfl
  | succ n ih =>
    rw [asked, ih, ask_calls, List.replicate_succ', List.append_assoc, List.singleton_append]

variable {client c}

theorem lt_settledAt {s : Session σ} {n : Nat}
    (before : ∀ m < n, Transient (s.outcome client c m)) :
    ((n + 1 : Nat) : ℕ∞) ≤ s.settledAt client c := by
  apply le_iInf₂
  intro m settled
  have later : n ≤ m := Nat.le_of_not_lt fun earlier => settled (before m earlier)
  exact Nat.cast_le.mpr (Nat.succ_le_succ later)

theorem settledAt_eq {s : Session σ} {n : Nat}
    (before : ∀ m < n, Transient (s.outcome client c m))
    (settled : ¬Transient (s.outcome client c n)) : s.settledAt client c = (n + 1 : Nat) :=
  le_antisymm (iInf₂_le n settled) (lt_settledAt before)

end Session

/-- A client with one outcome after the other, whatever it is asked. -/
def Client.script (outcomes : Nat → Option Answer) : Client Nat :=
  ⟨"script", fun _ n => (⟨outcomes n, false⟩, n + 1)⟩

/-- There is no sequence of outcomes that no client has. -/
theorem Session.outcome_script (outcomes : Nat → Option Answer) (c : VendorCall)
    (s : Session Nat) (n : Nat) :
    s.outcome (Client.script outcomes) c n = outcomes (s.state + n) := by
  induction n generalizing s with
  | zero => rfl
  | succ n ih =>
    have next := ih (s.ask (Client.script outcomes) c).2
    rw [show (s.ask (Client.script outcomes) c).2.state = s.state + 1 from rfl] at next
    rw [← Nat.add_assoc, Nat.add_right_comm, ← next]
    rfl

namespace Program

variable {σ : Type}

theorem askUpTo_zero (client : Client σ) (c : VendorCall) (s : Session σ) :
    (askUpTo c 0).run client s = s.ask client c := by
  simp only [askUpTo, run]
  rcases s.ask client c with ⟨_ | answer, next⟩ <;> rfl

/-- An outcome that is not transient is the last one, however many retries are left. -/
theorem askUpTo_settled {client : Client σ} {c : VendorCall} {s : Session σ}
    (settled : ¬Transient (s.ask client c).1) (retries : Nat) :
    (askUpTo c retries).run client s = s.ask client c := by
  cases retries with
  | zero => exact askUpTo_zero client c s
  | succ retries =>
    simp only [askUpTo, run]
    rcases asked : s.ask client c with ⟨_ | e | v, next⟩
    · rfl
    · rw [asked, transient_error_iff] at settled
      simp only [settled, Bool.false_eq_true, ↓reduceIte, run]
    · rfl

theorem askUpTo_transient {client : Client σ} {c : VendorCall} {s : Session σ}
    (failed : Transient (s.ask client c).1) (retries : Nat) :
    (askUpTo c (retries + 1)).run client s =
      (askUpTo c retries).run client (s.ask client c).2 := by
  simp only [askUpTo, run]
  rcases asked : s.ask client c with ⟨answer, next⟩
  rw [asked] at failed
  obtain ⟨operation, message⟩ := failed
  rfl

/-- Calls are repeated just while they fail in passing and some retries are left. -/
theorem askUpTo_run (client : Client σ) (c : VendorCall) (retries : Nat) (s : Session σ) :
    ∃ earlier ≤ retries, (∀ n < earlier, Transient (s.outcome client c n)) ∧
      (earlier = retries ∨ ¬Transient (s.outcome client c earlier)) ∧
      (askUpTo c retries).run client s =
        (s.outcome client c earlier, s.asked client c (earlier + 1)) := by
  induction retries generalizing s with
  | zero => exact ⟨0, le_rfl, by simp, .inl rfl, askUpTo_zero client c s⟩
  | succ retries ih =>
    by_cases failed : Transient (s.ask client c).1
    · obtain ⟨earlier, few, before, last, ran⟩ := ih (s.ask client c).2
      refine ⟨earlier + 1, by omega, ?_, last.imp (congrArg (· + 1)) id, ?_⟩
      · intro n below
        cases n with
        | zero => exact failed
        | succ n => exact before n (by omega)
      · rw [askUpTo_transient failed, ran]
        rfl
    · exact ⟨0, Nat.zero_le _, by simp, .inr failed, askUpTo_settled failed _⟩

/-- Attempts end with the first outcome that is not transient, or where no more are allowed. -/
theorem askWithRetry_run (client : Client σ) (config : RetryConfig) (c : VendorCall)
    (s : Session σ) :
    ∃ earlier : Nat, ((earlier + 1 : Nat) : ℕ∞) =
        min (s.settledAt client c) ((max 1 config.maxAttempts : Nat) : ℕ∞) ∧
      (∀ n < earlier, Transient (s.outcome client c n)) ∧
      (askWithRetry config c).run client s =
        (s.outcome client c earlier, s.asked client c (earlier + 1)) := by
  obtain ⟨earlier, few, before, last, ran⟩ := askUpTo_run client c (config.maxAttempts - 1) s
  refine ⟨earlier, ?_, before, ran⟩
  by_cases failed : Transient (s.outcome client c earlier)
  · have spent : earlier = config.maxAttempts - 1 := last.resolve_right (not_not.mpr failed)
    have most : earlier + 1 = max 1 config.maxAttempts := by omega
    rw [← most]
    exact (min_eq_right (Session.lt_settledAt before)).symm
  · have most : earlier + 1 ≤ max 1 config.maxAttempts := by omega
    rw [Session.settledAt_eq before failed]
    exact (min_eq_left (Nat.cast_le.mpr most)).symm

end Program

namespace Action

/-- The way of asking that belongs to an action. -/
inductive AsksBy : Action → Method → Prop where
  | list (resource : String) : AsksBy (.list resource) .list
  | aggregatedList (resource : String) : AsksBy (.aggregatedList resource) .aggregatedList
  | get (resource : String) : AsksBy (.get resource) .get
  | iamPolicy (resource : String) : AsksBy (.iamPolicy resource) .iamPolicy

/-- Actions that ask for a single resource. -/
inductive NeedsReference : Action → Prop where
  | get (resource : String) : NeedsReference (.get resource)
  | iamPolicy (resource : String) : NeedsReference (.iamPolicy resource)

/-- An action that can be asked is asked in its own way. -/
theorem dispatch_remote (config : RetryConfig) {a : Action} {r : Request} (remote : a ≠ .eval)
    (referred : a.NeedsReference → r.resourceRef ≠ none) :
    ∃ m, a.AsksBy m ∧ a.dispatch config r = Program.askWithRetry config ⟨m, r⟩ := by
  have found : a.NeedsReference → r.resourceRef.isNone = false := by
    intro needs
    rw [Option.isNone_eq_false_iff, Option.isSome_iff_ne_none]
    exact referred needs
  cases a with
  | list resource => exact ⟨_, .list resource, rfl⟩
  | aggregatedList resource => exact ⟨_, .aggregatedList resource, rfl⟩
  | get resource =>
    refine ⟨_, .get resource, ?_⟩
    simp [dispatch, method?, found (.get resource)]
  | iamPolicy resource =>
    refine ⟨_, .iamPolicy resource, ?_⟩
    simp [dispatch, method?, found (.iamPolicy resource)]
  | eval => exact absurd rfl remote

/-- What an action does for a request in a session, whatever its client answers. -/
structure DispatchLaws {σ : Type} (client : Client σ) (config : RetryConfig) (a : Action)
    (r : Request) (s : Session σ) : Prop where
  /-- Parameters are an answer by themselves. -/
  eval : a = .eval → (a.dispatch config r).run client s = (some (.ok (.object r.params)), s)
  /-- Nothing is asked about a resource that is not named. -/
  unreferenced : a.NeedsReference → r.resourceRef = none →
    (a.dispatch config r).run client s = (some (.error (.fatal r.action
      "no resource reference: set the 'resource' param or iterate with for_each")), s)
  /-- Otherwise the request is asked again and again, until an outcome is not transient or no more
  attempts are allowed. That last outcome is the result. -/
  remote : a ≠ .eval → (a.NeedsReference → r.resourceRef ≠ none) →
    ∃ m, a.AsksBy m ∧ ∃ earlier : Nat,
      ((earlier + 1 : Nat) : ℕ∞) =
        min (s.settledAt client ⟨m, r⟩) ((max 1 config.maxAttempts : Nat) : ℕ∞) ∧
      (∀ n < earlier, Transient (s.outcome client ⟨m, r⟩ n)) ∧
      ((a.dispatch config r).run client s).1 = s.outcome client ⟨m, r⟩ earlier ∧
      ((a.dispatch config r).run client s).2.calls =
        List.replicate (earlier + 1) ⟨m, r⟩ ++ s.calls

/-- Every action asks as often as its outcomes and the configuration say, and no more. -/
theorem dispatch_attempts {σ : Type} (client : Client σ) (config : RetryConfig) (a : Action)
    (r : Request) (s : Session σ) : DispatchLaws client config a r s where
  eval same := by
    subst same
    rfl
  unreferenced needs missing := by
    cases needs <;> simp [dispatch, method?, missing, Program.run, missingReference]
  remote asks referred := by
    obtain ⟨m, way, asked⟩ := dispatch_remote config asks referred
    obtain ⟨earlier, count, before, ran⟩ := Program.askWithRetry_run client config ⟨m, r⟩ s
    refine ⟨m, way, earlier, count, before, ?_, ?_⟩
    · rw [asked, ran]
    · rw [asked, ran, Session.asked_calls]

/-- A listing that fails twice in passing is asked three times where five are allowed, and once
where none is. -/
theorem listing_asked_thrice :
    let busy : VendorError := .transient "list_disks" "503"
    let client := Client.script fun n => if n < 2 then some (.error busy) else some (.ok (.array []))
    let r : Request := ⟨"gcp", "compute", "p1", "global", "list_disks", "disks", [], none⟩
    let s : Session Nat := { state := 0 }
    DispatchLaws client (.immediate 5) (.list "disks") r s ∧
      s.settledAt client ⟨.list, r⟩ = (3 : Nat) ∧
      (((list "disks").dispatch (.immediate 5) r).run client s).1 = some (.ok (.array [])) ∧
      (((list "disks").dispatch (.immediate 5) r).run client s).2.calls =
        List.replicate 3 ⟨.list, r⟩ ∧
      (((list "disks").dispatch (.immediate 0) r).run client s).1 = some (.error busy) ∧
      (((list "disks").dispatch (.immediate 0) r).run client s).2.calls = [⟨.list, r⟩] := by
  intro busy client r s
  have laws : DispatchLaws client (.immediate 5) (.list "disks") r s := dispatch_attempts ..
  have third : s.settledAt client ⟨.list, r⟩ = (3 : Nat) := by
    apply Session.settledAt_eq
    · intro n early
      rw [Session.outcome_script, show s.state + n = n from Nat.zero_add n, if_pos early]
      exact .error _ _
    · rw [Session.outcome_script]
      rintro ⟨⟩
  obtain ⟨m, way, earlier, count, -, result, calls⟩ := laws.remote (by decide) (by rintro ⟨⟩)
  cases way
  have attempts : earlier + 1 = 3 := by
    rw [third, min_eq_left (by decide)] at count
    exact Nat.cast_injective count
  obtain rfl : earlier = 2 := Nat.succ.inj attempts
  refine ⟨laws, third, result.trans ?_, calls, rfl, rfl⟩
  exact Session.outcome_script _ _ s 2

end Action

end CloudAudit
