import CloudAudit.Proofs.DiscoveryTurns

set_option autoImplicit false

/- What a discovery comes to when a function answers its calls. Each turn has an
outcome of its own, whatever the other turns do; the result joins the outcomes in
order, up to the first failure where failures end the discovery. -/
namespace CloudAudit

namespace Program

/-- A client that answers by a function leads a program to the value and through
the calls that the function gives. -/
theorem run_of_answersBy {α σ : Type} {client : Client σ} {answer : VendorCall → Answer}
    (fixed : client.AnswersBy answer) (p : Program α) (s : Session σ) :
    (p.run client s).1 = some (p.eval answer) ∧
      (p.run client s).2.calls = (p.trace answer).reverse ++ s.calls ∧
      ∃ log, Path p log (some (p.eval answer)) ∧ log.map (·.1) = p.trace answer ∧
        ∀ e ∈ log, e.2 = some (answer e.1) := by
  obtain ⟨log, way, calls, known⟩ := run_path client p s
  have answered : ∀ e ∈ log, e.2 = some (answer e.1) := fun e member =>
    fixed.replied (known e member)
  obtain ⟨value, made⟩ := way.determined answered
  rw [value] at way
  rw [made] at calls
  exact ⟨value, calls, log, way, made, answered⟩

end Program

namespace Discovery

/-- What a turn comes to, run alone and with its calls answered by a function. -/
def outcome (u : UnitContext) (d : Discovery) (unit : Scope) (answer : VendorCall → Answer)
    (turn : Turn) : Except IterationError (List Item) := (runTurn u d unit turn).eval answer

/-- The calls a turn makes, run alone. -/
def callsOf (u : UnitContext) (d : Discovery) (unit : Scope) (answer : VendorCall → Answer)
    (turn : Turn) : List VendorCall := (runTurn u d unit turn).trace answer

/-- Items that an outcome adds. -/
def gained : Except IterationError (List Item) → List Item
  | .ok items => items
  | .error _ => []

/-- The failure that an outcome leaves behind. -/
def failure? (turn : Turn) : Except IterationError (List Item) → Option IterationFailure
  | .ok _ => none
  | .error e => some ⟨turn.map (·.1), e.message⟩

section Calls

variable {u : UnitContext} {answer : VendorCall → Answer} {parent : Option String}
  {e : IterationError}

section

variable {c : Call} {it : Iteration} {params : Fields}

/-- A call whose parameters are known is asked, and its answer decides what follows. -/
theorem runCalls_cons (u : UnitContext) (parent : Option String)
    (resolved : it.scope.resolveParams c.params = .ok params) (rest : List Call) :
    ∃ next, runCalls u parent (c :: rest) it =
        (c.action.dispatch u.retry (u.place.request c.action params parent)).bind next ∧
      (∀ cause, next (.error cause) = .done (.error (.vendor cause))) ∧
      ∀ response, next (.ok response) =
        runCalls u parent rest ⟨it.scope.bindValue c.saveAs response, response⟩ := by
  simp only [runCalls, resolved]
  exact ⟨_, rfl, fun _ => rfl, fun _ => rfl⟩

/-- A call that is refused is the last one made. -/
theorem runCalls_refused (resolved : it.scope.resolveParams c.params = .ok params)
    {cause : VendorError} (asked : (c.action.dispatch u.retry
      (u.place.request c.action params parent)).eval answer = .error cause) (rest : List Call) :
    (runCalls u parent (c :: rest) it).eval answer = .error (.vendor cause) ∧
      (runCalls u parent (c :: rest) it).trace answer =
        (c.action.dispatch u.retry (u.place.request c.action params parent)).trace answer := by
  obtain ⟨next, opened, refused, _⟩ := runCalls_cons u parent resolved rest
  rw [opened, Program.eval_bind, Program.trace_bind, asked, refused]
  exact ⟨rfl, List.append_nil _⟩

/-- After a call that is answered the rest go on with its response. -/
theorem runCalls_answered (resolved : it.scope.resolveParams c.params = .ok params)
    {response : Json} (asked : (c.action.dispatch u.retry
      (u.place.request c.action params parent)).eval answer = .ok response) (rest : List Call) :
    (runCalls u parent (c :: rest) it).eval answer =
        (runCalls u parent rest ⟨it.scope.bindValue c.saveAs response, response⟩).eval answer ∧
      (runCalls u parent (c :: rest) it).trace answer =
        (c.action.dispatch u.retry (u.place.request c.action params parent)).trace answer ++
          (runCalls u parent rest ⟨it.scope.bindValue c.saveAs response, response⟩).trace
            answer := by
  obtain ⟨next, opened, _, answered⟩ := runCalls_cons u parent resolved rest
  rw [opened, Program.eval_bind, Program.trace_bind, asked, answered]
  exact ⟨rfl, rfl⟩

end

/-- Calls that fail do so at one of them, and those after it are not made. -/
theorem runCalls_error (calls : List Call) : ∀ {it : Iteration},
    (runCalls u parent calls it).eval answer = .error e →
    ∃ before c after, calls = before ++ c :: after ∧
      (∃ last, (runCalls u parent before it).eval answer = .ok last) ∧
      (runCalls u parent (before ++ [c]) it).eval answer = .error e ∧
      (runCalls u parent calls it).trace answer =
        (runCalls u parent (before ++ [c]) it).trace answer := by
  induction calls with
  | nil =>
    intro it failed
    cases failed
  | cons c rest ih =>
    intro it failed
    cases resolved : it.scope.resolveParams c.params with
    | error cause =>
      simp only [runCalls, resolved] at failed
      refine ⟨[], c, rest, rfl, ⟨it, rfl⟩, ?_, ?_⟩
      · simpa only [List.nil_append, runCalls, resolved] using failed
      · simp only [List.nil_append, runCalls, resolved]
    | ok params =>
      cases asked : (c.action.dispatch u.retry
          (u.place.request c.action params parent)).eval answer with
      | error cause =>
        have all := runCalls_refused resolved asked rest
        have alone := runCalls_refused resolved asked []
        refine ⟨[], c, rest, rfl, ⟨it, rfl⟩, ?_, ?_⟩
        · rw [List.nil_append, alone.1, ← all.1]
          exact failed
        · rw [List.nil_append, all.2, alone.2]
      | ok response =>
        rw [(runCalls_answered resolved asked rest).1] at failed
        obtain ⟨before, d, after, rfl, ⟨last, sound⟩, cut, same⟩ := ih failed
        refine ⟨c :: before, d, after, rfl, ⟨last, ?_⟩, ?_, ?_⟩
        · rw [(runCalls_answered resolved asked before).1]
          exact sound
        · rw [List.cons_append, (runCalls_answered resolved asked _).1]
          exact cut
        · rw [List.cons_append, (runCalls_answered resolved asked _).2,
            (runCalls_answered resolved asked _).2, same]

/-- A turn fails at a call when its calls up to that one fail the same way, those
before it succeed, and those after it are not made. -/
structure FailsAt (u : UnitContext) (d : Discovery) (unit : Scope)
    (answer : VendorCall → Answer) (turn : Turn) (e : IterationError) (before : List Call)
    (c : Call) : Prop where
  sound : (outcome u { d with calls := before } unit answer turn).isOk = true
  failed : outcome u { d with calls := before ++ [c] } unit answer turn = .error e
  made : callsOf u d unit answer turn =
    callsOf u { d with calls := before ++ [c] } unit answer turn

theorem runTurn_eq (u : UnitContext) (d : Discovery) (unit : Scope) (turn : Turn) :
    runTurn u d unit turn =
      (runCalls u (turn.map (·.1)) d.calls ⟨turnScope unit turn, .null⟩).bind fun
        | .error e => .done (.error e)
        | .ok it => .done (.ok (project d.emit it)) := by
  unfold runTurn
  rfl

theorem outcome_error {d : Discovery} {unit : Scope} {turn : Turn}
    (failed : outcome u d unit answer turn = .error e) :
    ∃ before c after, d.calls = before ++ c :: after ∧
      FailsAt u d unit answer turn e before c := by
  have called : (runCalls u (turn.map (·.1)) d.calls ⟨turnScope unit turn, .null⟩).eval answer =
      .error e := by
    rw [outcome, runTurn_eq, Program.eval_bind] at failed
    cases ran : (runCalls u (turn.map (·.1)) d.calls ⟨turnScope unit turn, .null⟩).eval answer with
    | ok it =>
      rw [ran] at failed
      cases failed
    | error cause =>
      rw [ran] at failed
      cases failed
      rfl
  obtain ⟨before, c, after, split, ⟨last, sound⟩, cut, same⟩ := runCalls_error d.calls called
  refine ⟨before, c, after, split, ?_, ?_, ?_⟩
  · rw [outcome, runTurn_eq, Program.eval_bind, sound]
    rfl
  · rw [outcome, runTurn_eq, Program.eval_bind, cut]
    rfl
  · rw [callsOf, callsOf, runTurn_eq, runTurn_eq, Program.trace_bind, Program.trace_bind, called,
      same, cut]

end Calls

section Turns

variable {u : UnitContext} {d : Discovery} {unit : Scope} {answer : VendorCall → Answer}

/-- From one result to another by the outcomes of turns, all of them, in order. -/
structure Joins (u : UnitContext) (d : Discovery) (unit : Scope) (answer : VendorCall → Answer)
    (turns : List Turn) (r q : DiscoveryResult) (made : List VendorCall) : Prop where
  items : q.items = r.items ++ turns.flatMap fun turn => gained (outcome u d unit answer turn)
  failures : q.failures =
    r.failures ++ turns.filterMap fun turn => failure? turn (outcome u d unit answer turn)
  made : made = turns.flatMap (callsOf u d unit answer)

theorem Joins.nil {r q : DiscoveryResult} (items : q.items = r.items)
    (failures : q.failures = r.failures) : Joins u d unit answer [] r q [] := by
  refine ⟨?_, ?_, rfl⟩
  · rw [items, List.flatMap_nil, List.append_nil]
  · rw [failures, List.filterMap_nil, List.append_nil]

/-- One turn more at the front, when the rest starts where that turn ends. -/
theorem Joins.cons {turn : Turn} {turns : List Turn} {r next q : DiscoveryResult}
    {made : List VendorCall} (joins : Joins u d unit answer turns next q made)
    (items : next.items = r.items ++ gained (outcome u d unit answer turn))
    (failures : next.failures =
      r.failures ++ (failure? turn (outcome u d unit answer turn)).toList) :
    Joins u d unit answer (turn :: turns) r q (callsOf u d unit answer turn ++ made) := by
  refine ⟨?_, ?_, ?_⟩
  · rw [joins.items, items, List.flatMap_cons, List.append_assoc]
  · rw [joins.failures, failures, List.append_assoc, List.filterMap_cons]
    cases failure? turn (outcome u d unit answer turn) with
    | none => rfl
    | some f => rfl
  · rw [joins.made, List.flatMap_cons]

/-- Each turn succeeds or leaves a failure behind. -/
theorem countP_isOk_add_failures (o : Turn → Except IterationError (List Item))
    (turns : List Turn) :
    (turns.countP fun turn => (o turn).isOk) +
      (turns.filterMap fun turn => failure? turn (o turn)).length = turns.length := by
  induction turns with
  | nil => rfl
  | cons turn rest ih =>
    rw [List.countP_cons, List.filterMap_cons, List.length_cons]
    cases o turn with
    | ok items =>
      have succeeds : (Except.ok items : Except IterationError (List Item)).isOk = true := rfl
      have nothing : failure? turn (.ok items) = none := rfl
      simp only [succeeds, nothing, ↓reduceIte]
      omega
    | error e =>
      have fails : (Except.error e : Except IterationError (List Item)).isOk = false := rfl
      have left : failure? turn (.error e) = some ⟨turn.map (·.1), e.message⟩ := rfl
      simp only [fails, left, Bool.false_eq_true, ↓reduceIte, List.length_cons]
      omega

theorem failures_eq_nil {o : Turn → Except IterationError (List Item)} {turns : List Turn}
    (clear : ∀ turn ∈ turns, (o turn).isOk = true) :
    turns.filterMap (fun turn => failure? turn (o turn)) = [] := by
  rw [List.filterMap_eq_nil_iff]
  intro turn member
  have sound := clear turn member
  cases came : o turn with
  | ok items => rfl
  | error e =>
    rw [came] at sound
    cases sound

/-- Turns go on to the last one, or to the first one that fails where that ends the
discovery. The outcomes that turns have alone say what each of them adds. -/
theorem RunsTurns.settled {turns : List Turn} {r q : DiscoveryResult} {log : List Exchange}
    (runs : RunsTurns u d unit turns r log q) (fixed : ∀ e ∈ log, e.2 = some (answer e.1)) :
    ((d.onError = .fail → ∀ turn ∈ turns, (outcome u d unit answer turn).isOk = true) ∧
      q.status = .emitted ∧ q.reason = r.reason ∧
      Joins u d unit answer turns r q (log.map (·.1))) ∨
    (d.onError = .fail ∧ ∃ before turn after e made, turns = before ++ turn :: after ∧
      (∀ turn ∈ before, (outcome u d unit answer turn).isOk = true) ∧
      outcome u d unit answer turn = .error e ∧
      q.status = .failed ∧ q.reason = some (.iterationFailed e.message) ∧
      Joins u d unit answer before r q made ∧
      log.map (·.1) = made ++ callsOf u d unit answer turn) := by
  induction runs with
  | done r => exact .inl ⟨by simp, rfl, rfl, .nil rfl rfl⟩
  | @gain turn rest r q first more items way next ih =>
    rw [List.forall_mem_append] at fixed
    obtain ⟨value, calls⟩ := way.determined fixed.1
    have here : outcome u d unit answer turn = .ok items := (Option.some.inj value).symm
    have sound : (outcome u d unit answer turn).isOk = true := by rw [here]; rfl
    have step : ∀ {turns made}, Joins u d unit answer turns (r.pushAll d.idField items) q made →
        Joins u d unit answer (turn :: turns) r q (callsOf u d unit answer turn ++ made) := by
      intro turns made joins
      refine joins.cons ?_ ?_
      · rw [DiscoveryResult.pushAll_items, here, gained]
      · rw [DiscoveryResult.pushAll_failures, here, failure?, Option.toList_none, List.append_nil]
    rw [List.map_append, show first.map (·.1) = callsOf u d unit answer turn from calls]
    rcases ih fixed.2 with ⟨clear, status, reason, joins⟩ |
      ⟨policy, before, last, after, e, made, rfl, clear, fails, status, reason, joins, all⟩
    · rw [DiscoveryResult.pushAll_reason] at reason
      exact .inl ⟨fun policy => List.forall_mem_cons.mpr ⟨sound, clear policy⟩, status, reason,
        step joins⟩
    · rw [all, ← List.append_assoc]
      exact .inr ⟨policy, turn :: before, last, after, e, _, rfl,
        List.forall_mem_cons.mpr ⟨sound, clear⟩, fails, status, reason, step joins, rfl⟩
  | @note turn rest r q first more e way policy next ih =>
    rw [List.forall_mem_append] at fixed
    obtain ⟨value, calls⟩ := way.determined fixed.1
    have here : outcome u d unit answer turn = .error e := (Option.some.inj value).symm
    have proceeds : d.onError ≠ .fail := by
      rw [policy]
      decide
    rcases ih fixed.2 with ⟨_, status, reason, joins⟩ | ⟨stops, _⟩
    · refine .inl ⟨fun stops => absurd stops proceeds, status, reason, ?_⟩
      rw [List.map_append, show first.map (·.1) = callsOf u d unit answer turn from calls]
      refine joins.cons ?_ ?_
      · rw [here, gained, List.append_nil]
      · rw [here, failure?, Option.toList_some]
    · exact absurd stops proceeds
  | @stop turn rest r log e way policy =>
    obtain ⟨value, calls⟩ := way.determined fixed
    have here : outcome u d unit answer turn = .error e := (Option.some.inj value).symm
    exact .inr ⟨policy, [], turn, rest, e, [], rfl, by simp, here, rfl, rfl, .nil rfl rfl, calls⟩

end Turns

/-- The turns of a discovery that runs: a single one for a root, else one for each
item of the discovery iterated over, with its id, in order. -/
inductive TurnsOf (d : Discovery) (cache : Cache) : List Turn → Prop
  | root (single : d.forEach = none) : TurnsOf d cache [none]
  | each {parent : String} {q : DiscoveryResult} (iterates : d.forEach = some parent)
      (known : cache.get? parent = some q) (emitted : q.status = .emitted) :
      TurnsOf d cache (q.pairs.map some)

theorem turnsOf_of_turns {d : Discovery} {cache : Cache} {turns : List Turn}
    (given : d.turns cache = .ok turns) : TurnsOf d cache turns := by
  unfold Discovery.turns at given
  split at given
  · cases given
  cases iterates : d.forEach with
  | none =>
    rw [iterates] at given
    cases given
    exact .root iterates
  | some parent =>
    simp only [iterates] at given
    cases found : cache.get? parent with
    | none =>
      rw [found] at given
      cases given
    | some q =>
      simp only [found, DiscoveryResult.isEmitted, decide_eq_true_eq] at given
      split at given
      · next emitted =>
        split at given
        · cases given
        · cases given
          exact .each iterates found emitted
      · cases given

/-- A discovery that went on to the last of its turns, by the outcomes that these
have alone. -/
structure Joined (u : UnitContext) (d : Discovery) (unit : Scope) (answer : VendorCall → Answer)
    (turns : List Turn) (r : DiscoveryResult) (made : List VendorCall) : Prop where
  status : r.status = .emitted
  reason : r.reason = none
  items : r.items = turns.flatMap fun turn => gained (outcome u d unit answer turn)
  failures : r.failures = turns.filterMap fun turn =>
    failure? turn (outcome u d unit answer turn)
  counted : (turns.countP fun turn => (outcome u d unit answer turn).isOk) +
    r.failures.length = turns.length
  made : made = turns.flatMap (callsOf u d unit answer)

/-- A discovery that ended with the failure of a turn: it has what the turns before
that one gained, and no turn after it made a call. -/
structure Stopped (u : UnitContext) (d : Discovery) (unit : Scope) (answer : VendorCall → Answer)
    (before : List Turn) (turn : Turn) (e : IterationError) (r : DiscoveryResult)
    (made : List VendorCall) : Prop where
  status : r.status = .failed
  reason : r.reason = some (.iterationFailed e.message)
  items : r.items = before.flatMap fun turn => gained (outcome u d unit answer turn)
  failures : r.failures = []
  made : made = (before ++ [turn]).flatMap (callsOf u d unit answer)

/-- A list is cut in one way only at its first element that is not good. -/
theorem first_unique {α : Type} {good : α → Bool} {before after first later : List α} {a b : α}
    (same : before ++ a :: after = first ++ b :: later)
    (clear : ∀ x ∈ before, good x = true) (bad : good a = false)
    (sound : ∀ x ∈ first, good x = true) (wrong : good b = false) : before = first ∧ a = b := by
  have cut : ∀ {xs ys : List α} {x : α}, (∀ y ∈ xs, good y = true) → good x = false →
      (xs ++ x :: ys).takeWhile good = xs := by
    intro xs ys x all not
    rw [List.takeWhile_append_of_pos all, List.takeWhile_cons_of_neg (by simp [not]),
      List.append_nil]
  have equal : before = first := by
    rw [← cut clear bad, same, cut sound wrong]
  subst equal
  exact ⟨rfl, (List.cons.inj (List.append_cancel_left same)).1⟩

section

variable {u : UnitContext} {d : Discovery} {unit : Scope} {answer : VendorCall → Answer}
  {turns : List Turn} {q : DiscoveryResult} {log : List Exchange}

theorem RunsTurns.joined
    (runs : RunsTurns u d unit turns { discoveryId := d.id, status := .running } log q)
    (fixed : ∀ e ∈ log, e.2 = some (answer e.1))
    (goes_on : d.onError = .proceed ∨
      ∀ turn ∈ turns, (outcome u d unit answer turn).isOk = true) :
    Joined u d unit answer turns q (log.map (·.1)) := by
  rcases runs.settled fixed with ⟨_, status, reason, joins⟩ |
    ⟨policy, _, turn, _, e, _, rfl, _, fails, _⟩
  · refine ⟨status, reason, joins.items, joins.failures, ?_, joins.made⟩
    rw [joins.failures]
    exact countP_isOk_add_failures (outcome u d unit answer) turns
  · rcases goes_on with proceeds | clear
    · rw [policy] at proceeds
      cases proceeds
    · have sound := clear turn (by simp)
      rw [fails] at sound
      cases sound

theorem RunsTurns.stopped
    (runs : RunsTurns u d unit turns { discoveryId := d.id, status := .running } log q)
    (fixed : ∀ e ∈ log, e.2 = some (answer e.1)) (policy : d.onError = .fail)
    {before after : List Turn} {turn : Turn} {e : IterationError}
    (split : turns = before ++ turn :: after)
    (clear : ∀ turn ∈ before, (outcome u d unit answer turn).isOk = true)
    (fails : outcome u d unit answer turn = .error e) :
    Stopped u d unit answer before turn e q (log.map (·.1)) := by
  have bad : ∀ {turn e}, outcome u d unit answer turn = .error e →
      (outcome u d unit answer turn).isOk = false := by
    intro turn e failed
    rw [failed]
    rfl
  rcases runs.settled fixed with ⟨sound, _⟩ |
    ⟨_, first, other, later, cause, made, same, sound, wrong, status, reason, joins, all⟩
  · have good := sound policy turn (by simp [split])
    rw [bad fails] at good
    cases good
  · rw [split] at same
    obtain ⟨rfl, rfl⟩ := first_unique same clear (bad fails) sound (bad wrong)
    obtain rfl : e = cause := Except.error.inj (fails.symm.trans wrong)
    refine ⟨status, reason, joins.items, ?_, ?_⟩
    · rw [joins.failures, failures_eq_nil sound]
      rfl
    · rw [all, joins.made, List.flatMap_append, List.flatMap_singleton]

end

/-- With a client that answers by a function, a discovery always has a result, whose
items have the ids of their positions. Unless it is skipped, the result joins what
its turns come to alone: all of them, or those before the first failure where
failures end the discovery. A turn that fails adds nothing, and makes no call after
the one it fails at. -/
theorem run_joins_turns {σ : Type} {client : Client σ} {answer : VendorCall → Answer}
    (fixed : client.AnswersBy answer) (u : UnitContext) (d : Discovery) (cache : Cache)
    (s : Session σ) :
    ∃ r t made, (d.run u cache).run client s = (some r, t) ∧
      t.calls = made.reverse ++ s.calls ∧ r.discoveryId = d.id ∧ r.Numbered d.idField ∧
      (r.status ≠ .skipped → ∃ turns, d.TurnsOf cache turns ∧
        (d.onError = .proceed ∨
            (∀ turn ∈ turns, (d.outcome u (unitScope u cache) answer turn).isOk = true) →
          Joined u d (unitScope u cache) answer turns r made) ∧
        (d.onError = .fail → ∀ before turn after e, turns = before ++ turn :: after →
          (∀ turn ∈ before, (d.outcome u (unitScope u cache) answer turn).isOk = true) →
          d.outcome u (unitScope u cache) answer turn = .error e →
          Stopped u d (unitScope u cache) answer before turn e r made) ∧
        ∀ turn ∈ turns, ∀ e, d.outcome u (unitScope u cache) answer turn = .error e →
          gained (d.outcome u (unitScope u cache) answer turn) = [] ∧
          ∃ before c after, d.calls = before ++ c :: after ∧
            FailsAt u d (unitScope u cache) answer turn e before c) := by
  obtain ⟨value, calls, log, way, made, answered⟩ :=
    Program.run_of_answersBy fixed (d.run u cache) s
  refine ⟨_, _, _, Prod.ext value rfl, calls, ?_⟩
  cases given : d.turns cache with
  | error reason =>
    simp only [run, given, Program.eval]
    exact ⟨rfl, rfl, fun ran => absurd rfl ran⟩
  | ok turns =>
    have opened : d.run u cache = runTurns u d (unitScope u cache) turns
        { discoveryId := d.id, status := .running } := by rw [run, given]
    rw [opened] at way made ⊢
    have runs := runsTurns_of_path turns way
    rw [← made]
    refine ⟨runs.own, runs.numbered rfl, fun _ => ⟨turns, turnsOf_of_turns given, ?_, ?_, ?_⟩⟩
    · exact runs.joined answered
    · intro policy before turn after e split clear fails
      exact runs.stopped answered policy split clear fails
    · intro turn _ e fails
      exact ⟨by rw [fails, gained], outcome_error fails⟩

/-- Looks up each host, then asks for its disks. -/
def diskSearch (policy : FailurePolicy) : Discovery :=
  { id := "disks", calls := [⟨.get "hosts", [], "host"⟩, ⟨.list "disks", [], "response"⟩],
    forEach := some "hosts", dependsOn := [], emit := none, onError := policy, idField := none }

def threeHosts : Cache :=
  [("hosts", {
    discoveryId := "hosts"
    status := .emitted
    items := [[("name", .string "a")], [("name", .string "b")], [("name", .string "c")]]
    resourceIds := ["a", "b", "c"] })]

/-- The second host cannot be looked up; the others have a disk each. -/
def brokenHost (call : VendorCall) : Answer :=
  if call.request.resource = "hosts" then
    if call.request.resourceRef = some "b" then .error (.fatal "get_hosts" "gone") else .ok .null
  else .ok (.array [.object [("size", .number (.integer 1))]])

def hostClient : Client Unit := .ofFunction "hosts" brokenHost

def hostUnit : UnitContext := ⟨⟨"north", "compute", "main", "west"⟩, .standard⟩

/-- A search for disks, on its own. -/
def diskRun (policy : FailurePolicy) : Option DiscoveryResult × Session Unit :=
  ((diskSearch policy).run hostUnit threeHosts).run hostClient ⟨(), [], false⟩

/-- What was asked for, latest first. -/
def asked (s : Session Unit) : List (String × Option String) :=
  s.calls.map fun c => (c.request.resource, c.request.resourceRef)

/-- The second of three hosts fails at its first call. Where failures are recorded the
third one is asked too, and its disk is numbered after that of the first; else nothing
more is asked. -/
theorem diskSearch_joins_turns :
    hostClient.AnswersBy brokenHost ∧
    (∃ r t, diskRun .proceed = (some r, t) ∧ r.Numbered none ∧
      (r.status, r.reason) = (.emitted, none) ∧
      (r.resourceIds, r.failures) =
        (["disks[0]", "disks[1]"], [⟨some "b", "Vendor error in 'get_hosts': gone"⟩]) ∧
      asked t = [("disks", some "c"), ("hosts", some "c"), ("hosts", some "b"),
        ("disks", some "a"), ("hosts", some "a")]) ∧
    ∃ r t, diskRun .fail = (some r, t) ∧ r.Numbered none ∧
      (r.status, r.reason) =
        (.failed, some (.iterationFailed "Vendor error in 'get_hosts': gone")) ∧
      (r.resourceIds, r.failures) = (["disks[0]"], []) ∧
      asked t = [("hosts", some "b"), ("disks", some "a"), ("hosts", some "a")] := by
  have fixed : hostClient.AnswersBy brokenHost := Client.ofFunction_answersBy "hosts" brokenHost
  obtain ⟨r, t, _, ran, _, _, numbered, _⟩ :=
    run_joins_turns fixed hostUnit (diskSearch .proceed) threeHosts ⟨(), [], false⟩
  obtain ⟨q, v, _, stopped, _, _, aligned, _⟩ :=
    run_joins_turns fixed hostUnit (diskSearch .fail) threeHosts ⟨(), [], false⟩
  refine ⟨fixed, ⟨r, t, ran, numbered, ?_, ?_, ?_⟩, q, v, stopped, aligned, ?_, ?_, ?_⟩
  · have told : (diskRun .proceed).1.map (fun r => (r.status, r.reason)) =
        some (.emitted, none) := by decide +kernel
    rw [show diskRun .proceed = (some r, t) from ran] at told
    exact Option.some.inj told
  · have told : (diskRun .proceed).1.map (fun r => (r.resourceIds, r.failures)) =
        some (["disks[0]", "disks[1]"], [⟨some "b", "Vendor error in 'get_hosts': gone"⟩]) := by
      decide +kernel
    rw [show diskRun .proceed = (some r, t) from ran] at told
    exact Option.some.inj told
  · have told : asked (diskRun .proceed).2 = [("disks", some "c"), ("hosts", some "c"),
        ("hosts", some "b"), ("disks", some "a"), ("hosts", some "a")] := by decide +kernel
    rwa [show diskRun .proceed = (some r, t) from ran] at told
  · have told : (diskRun .fail).1.map (fun r => (r.status, r.reason)) =
        some (.failed, some (.iterationFailed "Vendor error in 'get_hosts': gone")) := by
      decide +kernel
    rw [show diskRun .fail = (some q, v) from stopped] at told
    exact Option.some.inj told
  · have told : (diskRun .fail).1.map (fun r => (r.resourceIds, r.failures)) =
        some (["disks[0]"], []) := by decide +kernel
    rw [show diskRun .fail = (some q, v) from stopped] at told
    exact Option.some.inj told
  · have told : asked (diskRun .fail).2 =
        [("hosts", some "b"), ("disks", some "a"), ("hosts", some "a")] := by decide +kernel
    rwa [show diskRun .fail = (some q, v) from stopped] at told

end Discovery

end CloudAudit
