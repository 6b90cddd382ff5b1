import CloudAudit.Discovery.Run
import CloudAudit.Proofs.ScopeReads

set_option autoImplicit false

/- What a discovery reads of the results so far: how those it waits on ended, the items
it iterates over, and the items its templates lead to. On caches that agree on these it
is the same program. -/
namespace CloudAudit

theorem Program.bind_assoc {α β γ : Type} (p : Program α) (f : α → Program β)
    (g : β → Program γ) : (p.bind f).bind g = p.bind fun a => (f a).bind g := by
  induction p with
  | done a => rfl
  | ask c next ih =>
    simp only [bind]
    congr 1
    funext answer
    exact ih answer

/-- The key that a step looks up in a mapping. -/
def Step.key? : Step → Option String
  | .key name => some name
  | .index n => some (toString n)
  | .flatten => none

/-- Whether a path leads to the items of a discovery: it names the discovery after
`discoveries`, or takes the results as a whole. -/
def Path.readsItems (p : Path) (id : String) : Bool :=
  match p.steps with
  | [.key root] => root == Scope.discoveriesName
  | .key root :: step :: _ => root == Scope.discoveriesName && step.key? == some id
  | _ => false

def Emit.paths : Emit → List Path
  | .single fields => Param.fieldPaths fields
  | .each collection _ fields => collection.paths ++ Param.fieldPaths fields

namespace Binding

/-- A step into the results goes on with the items of the discovery it names. -/
theorem walk_discoveries_congr {c c' : Cache} {step : Step}
    (same : ∀ id, step.key? = some id → (c.get? id).map (·.items) = (c'.get? id).map (·.items))
    (rest : List Step) : (discoveries c).walk (step :: rest) = (discoveries c').walk (step :: rest) := by
  have key : ∀ id, (c.get? id).map (·.items) = (c'.get? id).map (·.items) →
      (discoveries c).key? id = (discoveries c').key? id := by
    intro id equal
    have items : ((c.get? id).map (·.items)).map Binding.items =
        ((c'.get? id).map (·.items)).map Binding.items := congrArg _ equal
    rwa [Option.map_map, Option.map_map] at items
  cases step with
  | key id => rw [walk, walk, key id (same id rfl)]
  | index n =>
    rw [walk, walk]
    simp only [index?, key _ (same _ rfl)]
  | flatten => rfl

end Binding

namespace Discovery

/-- Paths of all templates of a discovery. -/
def paths (d : Discovery) : List Path :=
  (d.calls.flatMap fun c => Param.fieldPaths c.params) ++ (d.emit.map Emit.paths).getD []

/-- Whether a template of a discovery leads to the items of another one. -/
def reads (d : Discovery) (id : String) : Bool := d.paths.any (·.readsItems id)

section

variable {u : UnitContext}

theorem elementItem_congr {s t : Scope} {fields : List (String × Param)}
    (agree : Scope.Agree (Param.fieldPaths fields) s t) (bindAs : String) (v : Json) :
    elementItem s bindAs fields v = elementItem t bindAs fields v := by
  unfold elementItem Scope.bindValue
  rw [Scope.resolveFields_congr fields (agree.enter.bind bindAs (.value v))]

theorem project_congr {emit : Option Emit} {it it' : Iteration} (last : it.last = it'.last)
    (agree : Scope.Agree ((emit.map Emit.paths).getD []) it.scope it'.scope) :
    project emit it = project emit it' := by
  cases emit with
  | none => rw [project, project, last]
  | some emit =>
    cases emit with
    | single fields => rw [project, project, Scope.resolveFields_congr fields agree]
    | each collection bindAs fields =>
      have element : elementItem it.scope bindAs fields = elementItem it'.scope bindAs fields :=
        funext (elementItem_congr agree.append_right bindAs)
      simp only [project, Scope.resolve_congr collection agree.append_left, element]

/-- Scopes that agree on all paths to come lead through the same calls to the same end. -/
theorem runCalls_congr {β : Type} {paths : List Path} (parent : Option String)
    (next : Except IterationError Iteration → Program β)
    (same : ∀ it it' : Iteration, it.last = it'.last → Scope.Agree paths it.scope it'.scope →
      next (.ok it) = next (.ok it')) (calls : List Call) :
    ∀ {it it' : Iteration}, it.last = it'.last →
      Scope.Agree ((calls.flatMap fun c => Param.fieldPaths c.params) ++ paths)
        it.scope it'.scope →
      (runCalls u parent calls it).bind next = (runCalls u parent calls it').bind next := by
  induction calls with
  | nil =>
    intro it it' last agree
    exact same it it' last agree
  | cons c rest ih =>
    intro it it' last agree
    rw [List.flatMap_cons, List.append_assoc] at agree
    simp only [runCalls, ← Scope.resolveParams_congr c.params agree.append_left]
    cases it.scope.resolveParams c.params with
    | error e => rfl
    | ok params =>
      have asked : ∀ f g : Answer → Program (Except IterationError Iteration),
          (∀ a, (f a).bind next = (g a).bind next) →
          ∀ p : Program Answer, (p.bind f).bind next = (p.bind g).bind next := by
        intro f g equal p
        rw [Program.bind_assoc, Program.bind_assoc, funext equal]
      apply asked
      intro answer
      cases answer with
      | error cause => rfl
      | ok response => exact ih rfl (agree.append_right.bind c.saveAs (.value response))

theorem turnScope_agree {paths : List Path} {unit unit' : Scope}
    (agree : Scope.Agree paths unit unit') (turn : Turn) :
    Scope.Agree paths (turnScope unit turn) (turnScope unit' turn) := by
  cases turn with
  | none => exact agree.enter
  | some pair => exact agree.enter.bind Scope.itemName (.item pair.2)

variable {d : Discovery}

theorem runTurn_congr {unit unit' : Scope} (agree : Scope.Agree d.paths unit unit')
    (turn : Turn) : runTurn u d unit turn = runTurn u d unit' turn := by
  unfold runTurn
  refine runCalls_congr _ _ ?_ d.calls rfl (turnScope_agree agree turn)
  intro it it' last agree
  simp only [project_congr last agree]

theorem runTurns_congr {unit unit' : Scope} (agree : Scope.Agree d.paths unit unit')
    (turns : List Turn) : ∀ r, runTurns u d unit turns r = runTurns u d unit' turns r := by
  induction turns with
  | nil => exact fun _ => rfl
  | cons turn rest ih =>
    intro r
    have later : runTurns u d unit rest = runTurns u d unit' rest := funext ih
    simp only [runTurns, runTurn_congr agree turn, later]

/-- A discovery is the same program on two caches where it has the same iterations and
its paths into the results lead to the same values. -/
theorem run_congr {c c' : Cache} (turns : d.turns c = d.turns c')
    (same : ∀ p ∈ d.paths, ∀ rest, p.steps = .key Scope.discoveriesName :: rest →
      (Binding.discoveries c).walk rest = (Binding.discoveries c').walk rest) :
    d.run u c = d.run u c' := by
  have agree : Scope.Agree d.paths (unitScope u c) (unitScope u c') := by
    intro p member
    rw [unitScope, unitScope, Scope.resolvePath_bind, Scope.resolvePath_bind (Scope.ofPlace u.place)]
    by_cases starts : p.root? = some Scope.discoveriesName
    · rw [if_pos starts, if_pos starts]
      unfold Path.root? at starts
      split at starts
      · next root rest steps =>
        obtain rfl := Option.some.inj starts
        simp only [Scope.resolvePath, steps, Scope.lookup_bind, ↓reduceIte, Option.bind_some,
          same p member rest steps]
      · cases starts
    · rw [if_neg starts, if_neg starts]
  simp only [run, turns, runTurns_congr agree]

end

end Discovery

end CloudAudit
