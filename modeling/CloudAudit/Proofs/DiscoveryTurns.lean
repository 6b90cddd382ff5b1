import CloudAudit.Discovery.Run
import CloudAudit.Proofs.ProgramPath

set_option autoImplicit false

/- The turns of a discovery, one after the other. Its items and its failures grow
at their ends only, so a result is read off the outcomes that its turns had. -/
namespace CloudAudit

namespace DiscoveryResult

/-- Appends items in order, each with its id. -/
def pushAll (r : DiscoveryResult) (idField : Option String) (items : List Item) :
    DiscoveryResult := items.foldl (fun r item => r.push idField item) r

/-- Each item has the id of its own position. -/
def Numbered (idField : Option String) (r : DiscoveryResult) : Prop :=
  r.resourceIds = r.items.mapIdx fun i item => Item.resourceId item idField r.discoveryId i

variable {r : DiscoveryResult} {idField : Option String}

/-- Items come with their ids and leave the rest as it was. -/
theorem pushAll_eq (r : DiscoveryResult) (idField : Option String) (items : List Item) :
    ∃ ids, r.pushAll idField items =
      { r with items := r.items ++ items, resourceIds := ids } := by
  induction items generalizing r with
  | nil => exact ⟨r.resourceIds, by simp [pushAll]⟩
  | cons item rest ih =>
    obtain ⟨ids, same⟩ := ih (r.push idField item)
    refine ⟨ids, same.trans ?_⟩
    simp only [push, List.append_assoc, List.singleton_append]

@[simp] theorem pushAll_items (items : List Item) :
    (r.pushAll idField items).items = r.items ++ items := by
  obtain ⟨ids, same⟩ := pushAll_eq r idField items
  rw [same]

@[simp] theorem pushAll_failures (items : List Item) :
    (r.pushAll idField items).failures = r.failures := by
  obtain ⟨ids, same⟩ := pushAll_eq r idField items
  rw [same]

@[simp] theorem pushAll_reason (items : List Item) :
    (r.pushAll idField items).reason = r.reason := by
  obtain ⟨ids, same⟩ := pushAll_eq r idField items
  rw [same]

@[simp] theorem pushAll_discoveryId (items : List Item) :
    (r.pushAll idField items).discoveryId = r.discoveryId := by
  obtain ⟨ids, same⟩ := pushAll_eq r idField items
  rw [same]

theorem Numbered.push (numbered : r.Numbered idField) (item : Item) :
    (r.push idField item).Numbered idField := by
  unfold Numbered at numbered ⊢
  simp only [DiscoveryResult.push, List.mapIdx_concat, numbered]

theorem Numbered.pushAll (numbered : r.Numbered idField) (items : List Item) :
    (r.pushAll idField items).Numbered idField := by
  induction items generalizing r with
  | nil => exact numbered
  | cons item rest ih => exact ih (numbered.push item)

theorem Numbered.length (numbered : r.Numbered idField) :
    r.resourceIds.length = r.items.length := by
  rw [numbered, List.length_mapIdx]

end DiscoveryResult

namespace Discovery

/-- Turns in order, each going a way of its own program: its items are taken in,
or its failure is noted or ends the discovery. -/
inductive RunsTurns (u : UnitContext) (d : Discovery) (unit : Scope) :
    List Turn → DiscoveryResult → List Exchange → DiscoveryResult → Prop
  | done (r : DiscoveryResult) : RunsTurns u d unit [] r [] { r with status := .emitted }
  | gain {turn : Turn} {rest : List Turn} {r q : DiscoveryResult} {first more : List Exchange}
      {items : List Item} (way : Program.Path (runTurn u d unit turn) first (some (.ok items)))
      (next : RunsTurns u d unit rest (r.pushAll d.idField items) more q) :
      RunsTurns u d unit (turn :: rest) r (first ++ more) q
  | note {turn : Turn} {rest : List Turn} {r q : DiscoveryResult} {first more : List Exchange}
      {e : IterationError}
      (way : Program.Path (runTurn u d unit turn) first (some (.error e)))
      (policy : d.onError = .proceed)
      (next : RunsTurns u d unit rest
        { r with failures := r.failures ++ [⟨turn.map (·.1), e.message⟩] } more q) :
      RunsTurns u d unit (turn :: rest) r (first ++ more) q
  | stop {turn : Turn} {rest : List Turn} {r : DiscoveryResult} {log : List Exchange}
      {e : IterationError} (way : Program.Path (runTurn u d unit turn) log (some (.error e)))
      (policy : d.onError = .fail) :
      RunsTurns u d unit (turn :: rest) r log
        { r with status := .failed, reason := some (.iterationFailed e.message) }

variable {u : UnitContext} {d : Discovery} {unit : Scope}

theorem runsTurns_of_path (turns : List Turn) : ∀ {r q : DiscoveryResult} {log : List Exchange},
    Program.Path (runTurns u d unit turns r) log (some q) → RunsTurns u d unit turns r log q := by
  induction turns with
  | nil =>
    intro r q log way
    cases way
    exact .done r
  | cons turn rest ih =>
    intro r q log way
    rw [runTurns] at way
    obtain ⟨outcome, first, more, rfl, here, way⟩ := Program.Path.split way
    cases outcome with
    | ok items => exact .gain here (ih way)
    | error e =>
      cases policy : d.onError with
      | proceed =>
        simp only [policy] at way
        exact .note here policy (ih way)
      | fail =>
        simp only [policy] at way
        cases way
        rw [List.append_nil]
        exact .stop here policy

section

variable {turns : List Turn} {r q : DiscoveryResult} {log : List Exchange}

theorem RunsTurns.own (runs : RunsTurns u d unit turns r log q) :
    q.discoveryId = r.discoveryId := by
  induction runs with
  | done r => rfl
  | gain _ _ ih => rw [ih, DiscoveryResult.pushAll_discoveryId]
  | note _ _ _ ih => exact ih
  | stop => rfl

theorem RunsTurns.ended (runs : RunsTurns u d unit turns r log q) :
    q.status = .emitted ∨ q.status = .failed := by
  induction runs with
  | done r => exact .inl rfl
  | gain _ _ ih => exact ih
  | note _ _ _ ih => exact ih
  | stop => exact .inr rfl

/-- Only an error that ends the discovery makes it fail, and it is the reason. -/
theorem RunsTurns.reason (runs : RunsTurns u d unit turns r log q) (failed : q.status = .failed)
    (under_way : r.status ≠ .failed) : ∃ message, q.reason = some (.iterationFailed message) := by
  induction runs with
  | done r => cases failed
  | @gain _ _ r _ _ _ items _ _ ih =>
    refine ih failed ?_
    obtain ⟨ids, same⟩ := r.pushAll_eq d.idField items
    rw [same]
    exact under_way
  | note _ _ _ ih => exact ih failed under_way
  | stop => exact ⟨_, rfl⟩

theorem RunsTurns.numbered (runs : RunsTurns u d unit turns r log q)
    (numbered : r.Numbered d.idField) : q.Numbered d.idField := by
  induction runs with
  | done r => exact numbered
  | gain _ _ ih => exact ih (numbered.pushAll _)
  | note _ _ _ ih => exact ih numbered
  | stop => exact numbered

/-- A turn that fails, and the failure it leaves behind. -/
structure Fails (u : UnitContext) (d : Discovery) (unit : Scope) (turn : Turn)
    (f : IterationFailure) : Prop where
  parent : f.parentResourceId = turn.map (·.1)
  way : ∃ log e, Program.Path (runTurn u d unit turn) log (some (.error e)) ∧ f.error = e.message

/-- A failure is one that was there before, or that of a turn. -/
theorem RunsTurns.failed (runs : RunsTurns u d unit turns r log q) {f : IterationFailure}
    (member : f ∈ q.failures) :
    f ∈ r.failures ∨ d.onError = .proceed ∧ ∃ turn ∈ turns, Fails u d unit turn f := by
  induction runs with
  | done r => exact .inl member
  | gain way next ih =>
    rcases ih member with earlier | ⟨policy, turn, inside, fails⟩
    · rw [DiscoveryResult.pushAll_failures] at earlier
      exact .inl earlier
    · exact .inr ⟨policy, turn, List.mem_cons_of_mem _ inside, fails⟩
  | note way policy next ih =>
    rcases ih member with earlier | ⟨policy, turn, inside, fails⟩
    · rcases List.mem_append.mp earlier with earlier | here
      · exact .inl earlier
      · obtain rfl := List.mem_singleton.mp here
        exact .inr ⟨policy, _, List.mem_cons_self, rfl, _, _, way, rfl⟩
    · exact .inr ⟨policy, turn, List.mem_cons_of_mem _ inside, fails⟩
  | stop way policy => exact .inl member

end

end Discovery

end CloudAudit
