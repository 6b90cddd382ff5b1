import CloudAudit.Catalog.Compile
import CloudAudit.Proofs.DiscoveryJoin
import CloudAudit.Proofs.TemplateLiterals

set_option autoImplicit false

/- Items of a discovery that does not say which. They are the elements of a collection that could
be written down: what stands under `items` where that is a list, and the response where it is
not. -/
namespace CloudAudit

/-- A sequence comes to a value if its first part does and the rest goes on from there. -/
theorem Program.run_bind_eq_some {σ α β : Type} {client : Client σ} {p : Program α}
    {f : α → Program β} {s t : Session σ} {b : β} :
    (p.bind f).run client s = (some b, t) ↔
      ∃ a m, p.run client s = (some a, m) ∧ (f a).run client m = (some b, t) := by
  rw [run_bind]
  rcases p.run client s with ⟨_ | a, m⟩
  · simp
  · simp only [Prod.mk.injEq, Option.some.injEq]
    constructor
    · exact fun later => ⟨a, m, ⟨rfl, rfl⟩, later⟩
    · rintro ⟨_, _, ⟨rfl, rfl⟩, later⟩
      exact later

namespace Json

/-- The list under `items`, if there is one. -/
def listed? : Json → Option (List Json)
  | .object fields => match Fields.get? fields "items" with
    | some (.array vs) => some vs
    | _ => none
  | _ => none

/-- The length of a list; null counts for nothing and any other value for one. -/
def size : Json → Nat
  | .null => 0
  | .array vs => vs.length
  | _ => 1

/-- How many items a response has. -/
def itemCount (response : Json) : Nat :=
  match response.listed? with
  | some vs => vs.length
  | none => response.size

/-- The collection whose elements are the items of a response. -/
def collection (response : Json) : String :=
  match response.listed? with
  | some _ => "response.items"
  | none => "response"

theorem normalize_object (fields : Fields) : (Json.object fields).normalize =
    match Fields.get? fields "items" with
    | some (.array vs) => vs.map toItem
    | _ => [fields] := rfl

theorem listed?_eq_some {response : Json} {vs : List Json} : response.listed? = some vs ↔
    ∃ fields, response = .object fields ∧ Fields.get? fields "items" = some (.array vs) := by
  constructor
  · intro listed
    cases response with
    | object fields =>
      rw [listed?] at listed
      split at listed
      · next found =>
        obtain rfl := Option.some.inj listed
        exact ⟨fields, rfl, found⟩
      · cases listed
    | null | bool | number | string | array => cases listed
  · rintro ⟨fields, rfl, found⟩
    rw [listed?, found]

theorem normalize_listed {response : Json} {vs : List Json}
    (listed : response.listed? = some vs) : response.normalize = vs.map toItem := by
  obtain ⟨fields, rfl, found⟩ := listed?_eq_some.mp listed
  rw [normalize_object, found]

theorem normalize_unlisted {response : Json} (unlisted : response.listed? = none) :
    response.normalize = response.elements.map toItem := by
  cases response with
  | object fields =>
    rw [normalize_object]
    split
    · next vs found =>
      rw [listed?_eq_some.mpr ⟨fields, rfl, found⟩] at unlisted
      cases unlisted
    · rfl
  | null | bool | number | string | array => rfl

/-- Items that come back as a list are the items of that list. -/
theorem normalize_items (items : List Item) :
    (Json.array (items.map .object)).normalize = items := by
  have back : toItem ∘ Json.object = id := rfl
  change (items.map Json.object).map toItem = items
  rw [List.map_map, back, List.map_id]

theorem length_normalize (response : Json) :
    response.normalize.length = response.itemCount := by
  rw [itemCount]
  cases listed : response.listed? with
  | some vs => rw [normalize_listed listed, List.length_map]
  | none =>
    rw [normalize_unlisted listed, List.length_map]
    cases response <;> rfl

end Json

/-! Collections as templates. -/

namespace Template

/-- A template that is one path. -/
def ofPath (text : String) (steps : List Step) : Template :=
  ⟨markerOf text, [.expr (.path ⟨text, steps⟩)]⟩

theorem parse_response : parse (markerOf "response") = .ok (ofPath "response" [.key "response"]) :=
  parse_marker rfl rfl (by decide) rfl

theorem parse_responseItems : parse (markerOf "response.items") =
    .ok (ofPath "response.items" [.key "response", .key "items"]) :=
  parse_marker rfl rfl (by decide) rfl

end Template

namespace Scope

/-- The scope after a response that was saved under the usual name. -/
def saved (s : Scope) (response : Json) : Scope := s.bindValue defaultSaveAs response

theorem resolve_saved (s : Scope) {response v : Json} {steps : List Step}
    (led : (Binding.value response).walk steps = some v) (text : String) :
    (s.saved response).resolve (.ofPath text (.key "response" :: steps)) = .ok v := by
  have bound : (s.saved response).lookup "response" = some (.value response) := by
    rw [saved, bindValue, lookup_bind, defaultSaveAs, if_pos rfl]
  simp only [resolve, Template.single?, Template.ofPath, resolveExpr, resolvePath, bound,
    Option.bind_some, led]

/-- The collection of a response is found, and its elements are the items. -/
theorem collection_resolved (response : Json) :
    ∃ t, Template.parse (Template.markerOf response.collection) = .ok t ∧
      ∀ s : Scope, ∃ v, (s.saved response).resolve t = .ok v ∧
        v.elements.map Json.toItem = response.normalize := by
  rw [Json.collection]
  cases listed : response.listed? with
  | none =>
    refine ⟨_, Template.parse_response, fun s => ⟨response, s.resolve_saved rfl _, ?_⟩⟩
    exact (Json.normalize_unlisted listed).symm
  | some vs =>
    have led : (Binding.value response).walk [.key "items"] = some (.array vs) := by
      obtain ⟨fields, rfl, found⟩ := Json.listed?_eq_some.mp listed
      simp only [Binding.walk, Binding.key?, found, Option.map_some, Binding.toJson]
    refine ⟨_, Template.parse_responseItems, fun s => ⟨.array vs, s.resolve_saved led _, ?_⟩⟩
    exact (Json.normalize_listed listed).symm

end Scope

namespace Discovery

variable {σ : Type} {client : Client σ} {u : UnitContext} {d : Discovery}

/-- An emit that lists a collection as it is. -/
theorem compileEmit_collection {service id text : String} {entry : EmitEntry} {t : Template}
    (listed : entry.itemsFor = some text) (plain : entry.item = [])
    (read : Template.parse text = .ok t) :
    Document.compileEmit service id entry =
      .ok (.each t (nameOr defaultBindAs entry.bindAs) []) := by
  simp only [Document.compileEmit, listed, plain, read]
  rfl

theorem project_collection {it : Iteration} {t : Template} {v : Json}
    (found : it.scope.resolve t = .ok v) (bindAs : String) :
    project (some (.each t bindAs [])) it = v.elements.map Json.toItem := by
  simp only [project, found]
  rfl

theorem runTurn_eq_some {unit : Scope} {turn : Turn} {s t : Session σ} {items : List Item} :
    (runTurn u d unit turn).run client s = (some (.ok items), t) ↔
      ∃ it, (runCalls u (turn.map (·.1)) d.calls ⟨turnScope unit turn, .null⟩).run client s =
        (some (.ok it), t) ∧ project d.emit it = items := by
  rw [runTurn_eq, Program.run_bind_eq_some]
  constructor
  · rintro ⟨_ | it, m, made, ended⟩
    · cases ended
    · obtain ⟨same, rfl⟩ := Prod.mk.inj ended
      exact ⟨it, made, Except.ok.inj (Option.some.inj same)⟩
  · rintro ⟨it, made, rfl⟩
    exact ⟨.ok it, t, made, rfl⟩

/-- The parameters of a call are found in a scope, and the call is answered with a response. -/
def Responds (client : Client σ) (u : UnitContext) (call : Call) (parent : Option String)
    (scope : Scope) (s : Session σ) (response : Json) (t : Session σ) : Prop :=
  ∃ params, scope.resolveParams call.params = .ok params ∧
    (call.action.dispatch u.retry (u.place.request call.action params parent)).run client s =
      (some (.ok response), t)

theorem runCalls_one {call : Call} {parent : Option String} {it after : Iteration}
    {s t : Session σ} :
    (runCalls u parent [call] it).run client s = (some (.ok after), t) ↔
      ∃ response, Responds client u call parent it.scope s response t ∧
        after = ⟨it.scope.bindValue call.saveAs response, response⟩ := by
  cases resolved : it.scope.resolveParams call.params with
  | error e => simp [runCalls, Responds, Program.run, resolved]
  | ok params =>
    obtain ⟨next, opened, refused, answered⟩ := runCalls_cons u parent resolved []
    rw [opened, Program.run_bind_eq_some]
    constructor
    · rintro ⟨_ | response, m, asked, ended⟩
      · rw [refused] at ended
        cases ended
      · rw [answered] at ended
        obtain ⟨same, rfl⟩ := Prod.mk.inj ended
        have last := (Except.ok.inj (Option.some.inj same)).symm
        exact ⟨response, ⟨params, resolved, asked⟩, last⟩
    · rintro ⟨response, ⟨_, same, asked⟩, rfl⟩
      obtain rfl := Except.ok.inj (resolved.symm.trans same)
      refine ⟨.ok response, t, asked, ?_⟩
      rw [answered]
      rfl

/-- A turn of one call makes its items of the response and the scope it was saved in. -/
theorem runTurn_one {call : Call} (single : d.calls = [call]) (named : call.saveAs = defaultSaveAs)
    {unit : Scope} {turn : Turn} {s t : Session σ} {items : List Item} (emit : Option Emit) :
    (runTurn u { d with emit } unit turn).run client s = (some (.ok items), t) ↔
      ∃ response, Responds client u call (turn.map (·.1)) (turnScope unit turn) s response t ∧
        items = project emit ⟨(turnScope unit turn).saved response, response⟩ := by
  rw [runTurn_eq_some]
  simp only [single, runCalls_one, named]
  constructor
  · rintro ⟨_, ⟨response, responds, rfl⟩, rfl⟩
    exact ⟨response, responds, rfl⟩
  · rintro ⟨response, responds, rfl⟩
    exact ⟨_, ⟨response, responds, rfl⟩, rfl⟩

/-- A turn of one call that is answered comes to the items of the response, without an emit as well
as with one that lists the collection of the response. A response of these items has them as its
items again. -/
theorem default_projection_agrees (client : Client σ) (u : UnitContext) {call : Call}
    (single : d.calls = [call]) (named : call.saveAs = defaultSaveAs) (unit : Scope) (turn : Turn)
    (s : Session σ) :
    (∀ items t, (runTurn u { d with emit := none } unit turn).run client s = (some (.ok items), t) ↔
      ∃ response, Responds client u call (turn.map (·.1)) (turnScope unit turn) s response t ∧
        items = response.normalize) ∧
    (∀ response t, Responds client u call (turn.map (·.1)) (turnScope unit turn) s response t →
      ∀ (service : String) (entry : EmitEntry),
        entry.itemsFor = some (Template.markerOf response.collection) → entry.item = [] →
        ∃ emit, Document.compileEmit service d.id entry = .ok emit ∧
          (runTurn u { d with emit := some emit } unit turn).run client s =
            (some (.ok response.normalize), t)) ∧
    ∀ response : Json, (Json.array (response.normalize.map .object)).normalize =
      response.normalize ∧ response.normalize.length = response.itemCount := by
  refine ⟨fun items t => runTurn_one single named none, ?_,
    fun response => ⟨Json.normalize_items _, response.length_normalize⟩⟩
  intro response t responds service entry listed plain
  obtain ⟨template, read, everywhere⟩ := Scope.collection_resolved response
  obtain ⟨v, found, same⟩ := everywhere (turnScope unit turn)
  refine ⟨_, compileEmit_collection listed plain read, ?_⟩
  refine (runTurn_one single named _).mpr ⟨response, responds, ?_⟩
  rw [project_collection found, same]

/-- A page of disks: one without a name, a pair of names and a name with its size. -/
def diskPage : Json :=
  .object [("next", .string "b"), ("items", .array [.null, .array [.string "a0", .string "a1"],
    .object [("name", .string "a2"), ("size", .int 8)]])]

def diskPages : Client Unit := .ofFunction "disks" fun _ => .ok diskPage

def diskCall : Call := ⟨.list "disks", [], defaultSaveAs⟩

def disks : Discovery :=
  { id := "disks", calls := [diskCall], forEach := none, dependsOn := [], emit := none,
    onError := .fail, idField := none }

def diskUnit : UnitContext := ⟨⟨"north", "compute", "main", "west"⟩, .immediate 1⟩

def diskItems : List Item :=
  [[("value", .null)], [("value", .array [.string "a0", .string "a1"])],
    [("name", .string "a2"), ("size", .int 8)]]

/-- A page is a list of items with or without an emit; a disk that is null is an item too. -/
theorem diskPage_projected :
    disks.calls = [diskCall] ∧ diskCall.saveAs = defaultSaveAs ∧
    ∃ t, Responds diskPages diskUnit diskCall none Scope.empty.enter ⟨(), [], false⟩ diskPage t ∧
      (runTurn diskUnit disks Scope.empty none).run diskPages ⟨(), [], false⟩ =
        (some (.ok diskItems), t) ∧
      ∃ emit, Document.compileEmit "compute" "disks"
          { itemsFor := some (Template.markerOf "response.items"), bindAs := some " " } = .ok emit ∧
        (runTurn diskUnit { disks with emit := some emit } Scope.empty none).run diskPages
          ⟨(), [], false⟩ = (some (.ok diskItems), t) := by
  have responds : Responds diskPages diskUnit diskCall none Scope.empty.enter ⟨(), [], false⟩
      diskPage _ := ⟨[], rfl, rfl⟩
  obtain ⟨unsaid, said, _⟩ :=
    default_projection_agrees (d := disks) diskPages diskUnit rfl rfl Scope.empty none
      ⟨(), [], false⟩
  exact ⟨rfl, rfl, _, responds, (unsaid diskItems _).mpr ⟨diskPage, responds, rfl⟩,
    said diskPage _ responds "compute" { itemsFor := some _, bindAs := some " " } rfl rfl⟩

end Discovery

end CloudAudit
