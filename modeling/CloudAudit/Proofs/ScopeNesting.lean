import CloudAudit.Proofs.DefaultProjection

set_option autoImplicit false

/- Scopes over time. Frames are entered and left and names are bound in between, in any
order; what a name means is told by that history alone. A frame that was left leaves
nothing behind, so turns of a discovery that follow one another do not see each other. -/
namespace CloudAudit

namespace Scope

/-- What may happen to a scope. -/
inductive Move where
  | enter
  | leave
  | bind (name : String) (b : Binding)

def move (s : Scope) : Move → Scope
  | .enter => s.enter
  | .leave => s.leave
  | .bind name b => s.bind name b

/-- The scope that moves lead to, the first one first. -/
def after (s : Scope) (moves : List Move) : Scope := moves.foldl move s

/-! Histories. -/

/-- Frames entered less frames left. -/
def depth : List Move → Int
  | [] => 0
  | .enter :: rest => depth rest + 1
  | .leave :: rest => depth rest - 1
  | .bind _ _ :: rest => depth rest

/-- The frame that is innermost before the moves is not left by them: at no time more
frames were left than entered. -/
def Remains (moves : List Move) : Prop := ∀ n, 0 ≤ depth (moves.take n)

/-- A binding that was made and whose frame was not left since. -/
def Stands (moves : List Move) (name : String) (b : Binding) : Prop :=
  ∃ before later, moves = before ++ .bind name b :: later ∧ Remains later

/-- The last binding of a name that stands: none of those made later does. -/
def Latest (moves : List Move) (name : String) (b : Binding) : Prop :=
  ∃ before later, moves = before ++ .bind name b :: later ∧ Remains later ∧
    ∀ c, ¬Stands later name c

/-- Moves in a frame and in frames entered from it, all of those left again. -/
def Within (moves : List Move) : Prop := Remains moves ∧ depth moves = 0

/-- A frame that is entered and left, with what is done in it. -/
def child (inner : List Move) : List Move := .enter :: (inner ++ [.leave])

/-- How many of the frames there were before are left by moves. -/
def framesLeft : List Move → Nat
  | [] => 0
  | .enter :: rest => framesLeft rest - 1
  | .leave :: rest => framesLeft rest + 1
  | .bind _ _ :: rest => framesLeft rest

theorem depth_take_cons {m : Move} {rest : List Move} {k : Int} :
    (∀ n, k ≤ depth ((m :: rest).take n)) ↔ k ≤ 0 ∧ ∀ n, k ≤ depth (m :: rest.take n) := by
  constructor
  · exact fun above => ⟨above 0, fun n => above (n + 1)⟩
  · rintro ⟨start, later⟩ n
    cases n with
    | zero => exact start
    | succ n => exact later n

theorem framesLeft_le_iff {moves : List Move} : ∀ {k : Nat},
    framesLeft moves ≤ k ↔ ∀ n, -(k : Int) ≤ depth (moves.take n) := by
  induction moves with
  | nil =>
    intro k
    simp [framesLeft, depth]
  | cons m rest ih =>
    intro k
    rw [depth_take_cons]
    cases m with
    | enter =>
      rw [framesLeft, Nat.sub_le_iff_le_add, ih]
      simp only [depth]
      constructor
      · exact fun above => ⟨by omega, fun n => by have here := above n; omega⟩
      · exact fun above n => by have here := above.2 n; omega
    | leave =>
      rw [framesLeft]
      simp only [depth]
      constructor
      · intro few
        have above := ih.mp (Nat.le_sub_of_add_le few)
        exact ⟨by omega, fun n => by have here := above n; omega⟩
      · rintro ⟨_, above⟩
        -- The frame left first is one of those that may be left.
        have first := above 0
        rw [List.take_zero, depth] at first
        have few : framesLeft rest ≤ k - 1 := ih.mpr fun n => by have here := above n; omega
        omega
    | bind name b =>
      rw [framesLeft, ih]
      simp only [depth]
      exact ⟨fun above => ⟨by omega, above⟩, And.right⟩

theorem remains_iff {moves : List Move} : Remains moves ↔ framesLeft moves = 0 := by
  rw [Remains, ← Nat.le_zero, framesLeft_le_iff]
  rfl

section

variable {m : Move} {rest : List Move} {name : String} {b : Binding}

theorem stands_cons : Stands (m :: rest) name b ↔
    m = .bind name b ∧ Remains rest ∨ Stands rest name b := by
  constructor
  · rintro ⟨before, later, split, remains⟩
    cases before with
    | nil =>
      obtain ⟨rfl, rfl⟩ := List.cons.inj split
      exact .inl ⟨rfl, remains⟩
    | cons _ before =>
      obtain ⟨rfl, rfl⟩ := List.cons.inj split
      exact .inr ⟨before, later, rfl, remains⟩
  · rintro (⟨rfl, remains⟩ | ⟨before, later, rfl, remains⟩)
    · exact ⟨[], rest, rfl, remains⟩
    · exact ⟨m :: before, later, rfl, remains⟩

theorem latest_cons : Latest (m :: rest) name b ↔
    (m = .bind name b ∧ Remains rest ∧ ∀ c, ¬Stands rest name c) ∨ Latest rest name b := by
  constructor
  · rintro ⟨before, later, split, remains, last⟩
    cases before with
    | nil =>
      obtain ⟨rfl, rfl⟩ := List.cons.inj split
      exact .inl ⟨rfl, remains, last⟩
    | cons _ before =>
      obtain ⟨rfl, rfl⟩ := List.cons.inj split
      exact .inr ⟨before, later, rfl, remains, last⟩
  · rintro (⟨rfl, remains, last⟩ | ⟨before, later, rfl, remains, last⟩)
    · exact ⟨[], rest, rfl, remains, last⟩
    · exact ⟨m :: before, later, rfl, remains, last⟩

end

/-- The last binding of a name that stands, read off the moves. -/
def latest? (name : String) : List Move → Option Binding
  | [] => none
  | .bind x b :: rest =>
    (latest? name rest).or (if x = name ∧ framesLeft rest = 0 then some b else none)
  | .enter :: rest => latest? name rest
  | .leave :: rest => latest? name rest

theorem latest?_eq_none {moves : List Move} {name : String} :
    latest? name moves = none ↔ ∀ b, ¬Stands moves name b := by
  induction moves with
  | nil => simp [latest?, Stands]
  | cons m rest ih =>
    cases m with
    | enter => simp [latest?, stands_cons, ih]
    | leave => simp [latest?, stands_cons, ih]
    | bind x b =>
      simp only [latest?, Option.or_eq_none_iff, ih, stands_cons, Move.bind.injEq, remains_iff]
      constructor
      · rintro ⟨older, here⟩ c (⟨⟨rfl, rfl⟩, remains⟩ | stands)
        · simp [remains] at here
        · exact older c stands
      · intro none_stands
        refine ⟨fun c stands => none_stands c (.inr stands), if_neg ?_⟩
        rintro ⟨rfl, remains⟩
        exact none_stands b (.inl ⟨⟨rfl, rfl⟩, remains⟩)

theorem latest?_eq_some {moves : List Move} {name : String} {b : Binding} :
    latest? name moves = some b ↔ Latest moves name b := by
  induction moves with
  | nil => simp [latest?, Latest]
  | cons m rest ih =>
    cases m with
    | enter => simp [latest?, latest_cons, ih]
    | leave => simp [latest?, latest_cons, ih]
    | bind x c =>
      rw [latest?, Option.or_eq_some_iff, latest?_eq_none, latest_cons, ih, Move.bind.injEq,
        remains_iff, or_comm]
      constructor
      · rintro (⟨last, here⟩ | older)
        · split at here
          · next made =>
            exact .inl ⟨⟨made.1, Option.some.inj here⟩, made.2, last⟩
          · cases here
        · exact .inr older
      · rintro (⟨⟨rfl, rfl⟩, remains, last⟩ | older)
        · exact .inl ⟨last, if_pos ⟨rfl, remains⟩⟩
        · exact .inr older

/-! What moves do to frames. -/

theorem after_cons (s : Scope) (m : Move) (rest : List Move) :
    s.after (m :: rest) = (s.move m).after rest := rfl

theorem after_append (s : Scope) (first second : List Move) :
    s.after (first ++ second) = (s.after first).after second := List.foldl_append

theorem find?_enter (s : Scope) (name : String) (k : Nat) :
    find? (s.enter.frames.drop k) name = find? (s.frames.drop (k - 1)) name := by
  cases k with
  | zero => rfl
  | succ k => rfl

theorem find?_leave (s : Scope) (name : String) (k : Nat) :
    find? (s.leave.frames.drop k) name = find? (s.frames.drop (k + 1)) name := by
  rw [leave, List.drop_drop, Nat.add_comm]

/-- A new binding is found as long as no frame is dropped. -/
theorem find?_bind (s : Scope) (x : String) (b : Binding) (name : String) (k : Nat) :
    find? ((s.bind x b).frames.drop k) name =
      if x = name ∧ k = 0 then some b else find? (s.frames.drop k) name := by
  cases k with
  | zero =>
    have found := lookup_bind s x name b
    simp only [lookup] at found
    simpa [eq_comm] using found
  | succ k =>
    rw [if_neg (by omega)]
    obtain ⟨frames⟩ := s
    cases frames with
    | nil => simp [bind]
    | cons frame outer => rfl

/-- After moves a name means its last binding that stands, else what the frames that were
not left had for it. -/
theorem lookup_after (moves : List Move) (name : String) : ∀ s : Scope,
    (s.after moves).lookup name =
      (latest? name moves).or (find? (s.frames.drop (framesLeft moves)) name) := by
  induction moves with
  | nil =>
    intro s
    rfl
  | cons m rest ih =>
    intro s
    rw [after_cons, ih]
    cases m with
    | enter => rw [move, find?_enter, latest?, framesLeft]
    | leave => rw [move, find?_leave, latest?, framesLeft]
    | bind x b =>
      rw [move, find?_bind, latest?, framesLeft, Option.or_assoc]
      split
      · rfl
      · rfl

/-- Before anything is bound no name means anything, whatever is left. -/
theorem find?_empty (k : Nat) (name : String) : find? (empty.frames.drop k) name = none := by
  cases k with
  | zero => rfl
  | succ k => rw [empty, List.drop_succ_cons, List.drop_nil, find?, List.findSome?_nil]

theorem lookup_after_empty (moves : List Move) (name : String) :
    (empty.after moves).lookup name = latest? name moves := by
  rw [lookup_after, find?_empty, Option.or_none]

/-- A frame is still there with the frames around it. It may have gained bindings, and so
many frames were entered from it and not left. -/
def Holds (inner : Frame) (outer : List Frame) (entered : Nat) (s : Scope) : Prop :=
  ∃ above gained, s.frames = above ++ (gained ++ inner) :: outer ∧ above.length = entered

section

variable {inner : Frame} {outer : List Frame} {entered : Nat} {s : Scope}

theorem Holds.start (s : Scope) : Holds [] s.frames 0 s.enter := ⟨[], [], rfl, rfl⟩

theorem Holds.enter (holds : Holds inner outer entered s) :
    Holds inner outer (entered + 1) s.enter := by
  obtain ⟨above, gained, frames, length⟩ := holds
  exact ⟨[] :: above, gained, congrArg ([] :: ·) frames, congrArg (· + 1) length⟩

theorem Holds.leave (holds : Holds inner outer (entered + 1) s) :
    Holds inner outer entered s.leave := by
  obtain ⟨above, gained, frames, length⟩ := holds
  obtain ⟨top, above, rfl⟩ := List.exists_cons_of_length_eq_add_one length
  refine ⟨above, gained, ?_, Nat.succ.inj length⟩
  rw [Scope.leave, frames]
  rfl

theorem Holds.bind (holds : Holds inner outer entered s) (name : String) (b : Binding) :
    Holds inner outer entered (s.bind name b) := by
  obtain ⟨frames⟩ := s
  obtain ⟨above, gained, rfl, length⟩ := holds
  cases above with
  | nil => exact ⟨[], (name, b) :: gained, rfl, length⟩
  | cons top above => exact ⟨((name, b) :: top) :: above, gained, rfl, length⟩

/-- Moves that leave no more than the frames entered from it do not touch a frame or those
around it. -/
theorem Holds.after (moves : List Move) : ∀ {entered : Nat} {s : Scope},
    Holds inner outer entered s → framesLeft moves ≤ entered →
    ∃ now : Nat, Holds inner outer now (s.after moves) ∧ (now : Int) = entered + depth moves := by
  induction moves with
  | nil =>
    intro entered s holds _
    exact ⟨entered, holds, by simp [depth]⟩
  | cons m rest ih =>
    intro entered s holds few
    rw [after_cons]
    cases m with
    | enter =>
      rw [framesLeft] at few
      obtain ⟨now, kept, count⟩ := ih holds.enter (by omega)
      refine ⟨now, kept, ?_⟩
      rw [count, depth]
      omega
    | leave =>
      rw [framesLeft] at few
      obtain ⟨before, rfl⟩ := Nat.exists_eq_add_one_of_ne_zero (n := entered) (by omega)
      obtain ⟨now, kept, count⟩ := ih holds.leave (by omega)
      refine ⟨now, kept, ?_⟩
      rw [count, depth]
      omega
    | bind name b =>
      rw [framesLeft] at few
      exact ih (holds.bind name b) few

end

/-- A frame that was entered and left leaves nothing behind. -/
theorem after_child (s : Scope) {inner : List Move} (within : Within inner) :
    s.after (child inner) = s := by
  obtain ⟨remains, back⟩ := within
  obtain ⟨now, ⟨above, gained, frames, length⟩, count⟩ :=
    (Holds.start s).after inner (Nat.le_of_eq (remains_iff.mp remains))
  rw [back] at count
  obtain rfl : above = [] := List.eq_nil_of_length_eq_zero (by omega)
  rw [child, after_cons, after_append, move]
  change leave _ = s
  rw [leave, frames]
  rfl

/-- Any number of them, one after the other. -/
theorem after_siblings (s : Scope) {siblings : List (List Move)}
    (within : ∀ inner ∈ siblings, Within inner) : s.after (siblings.flatMap child) = s := by
  induction siblings with
  | nil => rfl
  | cons inner rest ih =>
    obtain ⟨here, later⟩ := List.forall_mem_cons.mp within
    rw [List.flatMap_cons, after_append, after_child s here, ih later]

/-- Where nothing is entered and nothing is left, the frame remains. -/
theorem within_binds {moves : List Move} (binds : ∀ m ∈ moves, ∃ name b, m = .bind name b) :
    Within moves := by
  rw [Within, remains_iff]
  induction moves with
  | nil => exact ⟨rfl, rfl⟩
  | cons m rest ih =>
    obtain ⟨⟨name, b, rfl⟩, later⟩ := List.forall_mem_cons.mp binds
    exact ih later

end Scope

/-! Turns of a discovery. -/

namespace Discovery

/-- What a turn binds in its frame before its calls. -/
def turnBinds : Turn → List Scope.Move
  | none => []
  | some (_, item) => [.bind Scope.itemName (.item item)]

/-- What calls bind as their responses come in. -/
def saves (calls : List Call) (responses : List Json) : List Scope.Move :=
  List.zipWith (fun c v => .bind c.saveAs (.value v)) calls responses

theorem turnScope_after (unit : Scope) (turn : Turn) :
    turnScope unit turn = unit.after (.enter :: turnBinds turn) := by
  cases turn with
  | none => rfl
  | some parent => rfl

/-- What a turn does is done in its own frame. -/
theorem within_turn (turn : Turn) (calls : List Call) (responses : List Json) :
    Scope.Within (turnBinds turn ++ saves calls responses) := by
  apply Scope.within_binds
  intro m member
  rcases List.mem_append.mp member with parent | saved
  · cases turn with
    | none => cases parent
    | some parent => exact ⟨_, _, List.mem_singleton.mp parent⟩
  · obtain ⟨n, here⟩ := List.mem_iff_getElem?.mp saved
    obtain ⟨c, v, _, _, same⟩ := List.getElem?_zipWith_eq_some.mp here
    exact ⟨_, _, same.symm⟩

/-- Calls that are all answered have bound one response each. -/
theorem runCalls_after {u : UnitContext} {parent : Option String} (calls : List Call) :
    ∀ {it last : Iteration} {log : List Exchange},
      Program.Path (runCalls u parent calls it) log (some (.ok last)) →
      ∃ responses, responses.length = calls.length ∧
        last.scope = it.scope.after (saves calls responses) := by
  induction calls with
  | nil =>
    intro it last log way
    cases way
    exact ⟨[], rfl, rfl⟩
  | cons c rest ih =>
    intro it last log way
    cases resolved : it.scope.resolveParams c.params with
    | error e =>
      simp only [runCalls, resolved] at way
      cases way
    | ok params =>
      obtain ⟨next, opened, refused, answered⟩ := runCalls_cons u parent resolved rest
      rw [opened] at way
      obtain ⟨answer, _, _, _, _, later⟩ := way.split
      cases answer with
      | error cause =>
        rw [refused] at later
        cases later
      | ok response =>
        rw [answered] at later
        obtain ⟨responses, length, scope⟩ := ih later
        exact ⟨response :: responses, by simp [length], scope⟩

end Discovery

namespace Scope

open Discovery (diskCall diskPage diskPages diskUnit disks runCalls saves turnBinds turnScope)

/-- A name means its last binding whose frame was not left, and nothing if there is none.
A frame that was left has changed no name: neither for the scope around it nor for a frame
that is entered later. The turns of a discovery are such frames. -/
theorem names_mean_latest :
    (∀ (moves : List Move) (name : String) (b : Binding),
      (empty.after moves).lookup name = some b ↔ Latest moves name b) ∧
    (∀ (moves : List Move) (name : String),
      (empty.after moves).lookup name = none ↔ ∀ b, ¬Stands moves name b) ∧
    (∀ (s : Scope) (inner : List Move), Within inner → ∀ name : String,
      (s.after (child inner)).lookup name = s.lookup name) ∧
    (∀ (s : Scope) (siblings : List (List Move)) (moves : List Move),
      (∀ inner ∈ siblings, Within inner) → ∀ name : String,
      (s.after (siblings.flatMap child ++ moves)).lookup name = (s.after moves).lookup name) ∧
    ∀ (u : UnitContext) (d : Discovery) (unit : Scope) (turn : Turn) (log : List Exchange)
      (last : Iteration), Program.Path (runCalls u (turn.map (·.1)) d.calls
        ⟨turnScope unit turn, .null⟩) log (some (.ok last)) →
      ∃ responses, responses.length = d.calls.length ∧
        Within (turnBinds turn ++ saves d.calls responses) ∧
        last.scope = unit.after
          (.enter :: (turnBinds turn ++ saves d.calls responses)) := by
  refine ⟨?_, ?_, ?_, ?_, ?_⟩
  · intro moves name b
    rw [lookup_after_empty, latest?_eq_some]
  · intro moves name
    rw [lookup_after_empty, latest?_eq_none]
  · intro s inner within name
    rw [after_child s within]
  · intro s siblings moves within name
    rw [after_append, after_siblings s within]
  · intro u d unit turn log last way
    obtain ⟨responses, length, scope⟩ := Discovery.runCalls_after d.calls way
    refine ⟨responses, length, Discovery.within_turn turn d.calls responses, ?_⟩
    rw [scope, Discovery.turnScope_after, ← after_append]
    rfl

/-- The scope of a unit that has a response of its own. -/
def answeredUnit : List Move := [.bind "account" (.value (.string "main")),
  .bind "response" (.value (.string "unit"))]

/-- A turn for a host: its response is bound, and over it one for each entry. -/
def hostTurn : List Move := [.bind itemName (.item [("name", .string "host")]),
  .bind "response" (.value (.string "turn")), .enter, .bind "response" (.value (.string "entry")),
  .leave]

/-- During the turn its response stands over that of the unit, and that of the entry is gone.
Once the turn is left the response is the unit's, for the next turn too. -/
theorem hostTurn_forgotten :
    Within hostTurn ∧
    Latest (answeredUnit ++ .enter :: hostTurn) "response" (.value (.string "turn")) ∧
    (empty.after (answeredUnit ++ .enter :: hostTurn)).lookup "response" =
      some (.value (.string "turn")) ∧
    ((empty.after answeredUnit).after (child hostTurn)).lookup "response" =
      some (.value (.string "unit")) ∧
    ((empty.after answeredUnit).after ([hostTurn].flatMap child ++ [.enter])).lookup "response" =
      some (.value (.string "unit")) ∧
    ∃ responses, responses.length = 1 ∧
      (turnScope (empty.after answeredUnit) none).saved diskPage =
        (empty.after answeredUnit).after (.enter :: saves [diskCall] responses) := by
  have within : Within hostTurn := ⟨remains_iff.mpr rfl, rfl⟩
  obtain ⟨found, _, restored, siblings, turns⟩ := names_mean_latest
  have unit : (empty.after answeredUnit).lookup "response" = some (.value (.string "unit")) := rfl
  have latest := (found (answeredUnit ++ .enter :: hostTurn) "response" _).mp rfl
  have known : ∀ inner ∈ [hostTurn], Within inner := by simpa using within
  obtain ⟨log, way, _⟩ := Program.run_path diskPages
    (runCalls diskUnit none [diskCall] ⟨turnScope (empty.after answeredUnit) none, .null⟩)
    ⟨(), [], false⟩
  have ended : ((runCalls diskUnit none [diskCall]
      ⟨turnScope (empty.after answeredUnit) none, .null⟩).run diskPages ⟨(), [], false⟩).1 =
      some (.ok ⟨(turnScope (empty.after answeredUnit) none).saved diskPage, diskPage⟩) := rfl
  rw [ended] at way
  obtain ⟨responses, length, _, scope⟩ :=
    turns diskUnit disks (empty.after answeredUnit) none log _ way
  exact ⟨within, latest, (found _ _ _).mpr latest, (restored _ _ within _).trans unit,
    (siblings _ _ [.enter] known _).trans unit, responses, length, scope⟩

end Scope

end CloudAudit
