import CloudAudit.Proofs.ScopeReads
import CloudAudit.Proofs.TextTrim

set_option autoImplicit false

/- Bindings and the JSON they stand for. Items and results of discoveries are bound as they
are, without being written out as JSON first; no path can tell the difference. So a path
into an item leads a check to what `item.` and the path lead a template to. -/
namespace CloudAudit

namespace Binding

/-- The binding with its JSON in place of what it borrows. -/
def asValue (b : Binding) : Binding := .value b.toJson

theorem get?_discoveries (c : Cache) (key : String) :
    Fields.get? (c.map fun (id, r) => (id, itemsJson r.items)) key =
      (c.get? key).map fun r => itemsJson r.items := by
  induction c with
  | nil => rfl
  | cons entry rest ih =>
    obtain ⟨id, r⟩ := entry
    simp only [List.map_cons, Fields.get?, Cache.get?]
    split
    · rfl
    · exact ih

theorem key?_asValue (b : Binding) (key : String) :
    b.asValue.key? key = (b.key? key).map asValue := by
  cases b with
  | value v =>
    cases v with
    | object fields =>
      simp only [asValue, toJson, key?, Option.map_map]
      rfl
    | null | bool | number | string | array => rfl
  | item fields =>
    simp only [asValue, toJson, key?, Option.map_map]
    rfl
  | items is => rfl
  | discoveries c =>
    simp only [asValue, toJson, key?, get?_discoveries, Option.map_map]
    rfl

theorem index?_asValue (b : Binding) (n : Nat) :
    b.asValue.index? n = (b.index? n).map asValue := by
  cases b with
  | value v =>
    cases v with
    | array vs =>
      simp only [asValue, toJson, index?, Option.map_map]
      rfl
    | object fields => exact key?_asValue (.value (.object fields)) (toString n)
    | null | bool | number | string => rfl
  | item fields => exact key?_asValue (.item fields) (toString n)
  | items is =>
    simp only [asValue, toJson, itemsJson, index?, List.getElem?_map, Option.map_map]
    rfl
  | discoveries c => exact key?_asValue (.discoveries c) (toString n)

theorem elements?_asValue (b : Binding) :
    b.asValue.elements? = b.elements?.map (List.map asValue) := by
  cases b with
  | value v =>
    cases v with
    | array vs =>
      simp only [asValue, toJson, elements?, Option.map_some, List.map_map]
      rfl
    | null | bool | number | string | object => rfl
  | items is =>
    simp only [asValue, toJson, itemsJson, elements?, Option.map_some, List.map_map]
    rfl
  | item fields => rfl
  | discoveries c => rfl

/-- Steps lead through the JSON of a binding to where they lead through the binding. -/
theorem walk_asValue (steps : List Step) : ∀ b : Binding, b.asValue.walk steps = b.walk steps := by
  induction steps with
  | nil => intro b; rfl
  | cons step rest ih =>
    intro b
    cases step with
    | key name =>
      rw [walk, walk, key?_asValue]
      cases b.key? name with
      | none => rfl
      | some next => exact ih next
    | index n =>
      rw [walk, walk, index?_asValue]
      cases b.index? n with
      | none => rfl
      | some next => exact ih next
    | flatten =>
      rw [walk, walk, elements?_asValue]
      cases b.elements? with
      | none => rfl
      | some es =>
        simp only [Option.map_some, List.flatMap_map]
        congr 3
        funext e
        rw [ih e]

/-- Bindings of the same JSON lead to the same values. -/
theorem walk_congr {a b : Binding} (same : a.toJson = b.toJson) (steps : List Step) :
    a.walk steps = b.walk steps := by
  rw [← walk_asValue steps a, ← walk_asValue steps b, asValue, asValue, same]

end Binding

namespace Scope

/-- The scope with every binding replaced by its JSON. -/
def asValues (s : Scope) : Scope :=
  ⟨s.frames.map fun frame => frame.map fun (name, b) => (name, b.asValue)⟩

theorem lookup_asValue (frame : Frame) (name : String) :
    (frame.map fun (bound, b) => (bound, b.asValue)).lookup name =
      (frame.lookup name).map Binding.asValue := by
  induction frame with
  | nil => rfl
  | cons entry rest ih =>
    obtain ⟨bound, b⟩ := entry
    rw [List.map_cons, List.lookup_cons, List.lookup_cons]
    cases name == bound with
    | true => rfl
    | false => exact ih

theorem lookup_asValues (s : Scope) (name : String) :
    s.asValues.lookup name = (s.lookup name).map Binding.asValue := by
  obtain ⟨frames⟩ := s
  simp only [lookup, asValues]
  induction frames with
  | nil => rfl
  | cons frame outer ih =>
    simp only [find?, List.map_cons, List.findSome?_cons] at ih ⊢
    rw [lookup_asValue]
    cases frame.lookup name with
    | some b => rfl
    | none => exact ih

theorem resolvePath_asValues (s : Scope) (p : Path) :
    s.asValues.resolvePath p = s.resolvePath p := by
  obtain ⟨text, steps⟩ := p
  rcases steps with _ | ⟨step, rest⟩
  · rfl
  · cases step with
    | key root =>
      simp only [resolvePath, lookup_asValues]
      cases s.lookup root with
      | none => rfl
      | some b => simp only [Option.map_some, Option.bind_some, Binding.walk_asValue]
    | index n => rfl
    | flatten => rfl

/-- Nothing that is resolved tells two scopes apart. -/
structure Indistinct (s t : Scope) : Prop where
  path : ∀ p, s.resolvePath p = t.resolvePath p
  template : ∀ template, s.resolve template = t.resolve template
  param : ∀ p, s.resolveParam p = t.resolveParam p
  params : ∀ named, s.resolveParams named = t.resolveParams named
  fields : ∀ named, s.resolveFields named = t.resolveFields named

/-- Scopes that lead every path to the same value are the same for all that is made of paths. -/
theorem Indistinct.of_paths {s t : Scope} (same : ∀ p, s.resolvePath p = t.resolvePath p) :
    s.Indistinct t where
  path := same
  template := fun template => resolve_congr template fun p _ => same p
  param := fun p => resolveParam_congr p fun q _ => same q
  params := fun named => resolveParams_congr named fun q _ => same q
  fields := fun named => resolveFields_congr named fun q _ => same q

/-- Scopes whose bindings have the same names and stand for the same JSON. -/
theorem Indistinct.of_asValues {s t : Scope} (same : s.asValues = t.asValues) : s.Indistinct t :=
  .of_paths fun p => by rw [← s.resolvePath_asValues, same, t.resolvePath_asValues]

end Scope

namespace Path

/-- Text that a trimmed text ends and no blank starts is trimmed. -/
theorem trim_append {front cs : List Char} {c : Char} (first : front.head? = some c)
    (shown : Text.isBlank c = false) (filled : Text.trim cs ≠ []) :
    Text.trim (front ++ Text.trim cs) = front ++ Text.trim cs := by
  refine Text.trim_eq_self (fun d start => ?_) fun d last => ?_
  · rw [List.head?_append, first] at start
    rwa [← Option.some.inj start]
  · rw [List.getLast?_append_of_ne_nil _ filled] at last
    exact Text.trim_last last

theorem segments_append {root : List Char} (plain : '.' ∉ root) (rest : List Char) :
    segments (root ++ '.' :: rest) = root :: segments rest := by
  induction root with
  | nil => simp [segments]
  | cons c front ih =>
    obtain ⟨other, plain⟩ := not_or.mp (List.mem_cons.not.mp plain)
    rw [List.cons_append, segments, if_neg (Ne.symm other), ih plain]

theorem parse_eq_ok {text : String} {p : Path} :
    parse text = .ok p ↔ Text.trim text.toList ≠ [] ∧
      p.text = String.ofList (Text.trim text.toList) ∧
      stepsOf (segments (Text.trim text.toList)) = .ok p.steps := by
  obtain ⟨shown, steps⟩ := p
  simp only [parse]
  split
  · next empty => simp [empty]
  · next filled =>
    cases stepsOf (segments (Text.trim text.toList)) with
    | error e => simp
    | ok found => simp [filled, eq_comm]

/-- A path below a binding reads as the step to the binding and the steps of the path. -/
theorem parse_below {text : String} {p : Path} (read : parse text = .ok p) :
    parse (Scope.itemName ++ "." ++ p.text) =
      .ok ⟨Scope.itemName ++ "." ++ p.text, .key Scope.itemName :: p.steps⟩ := by
  obtain ⟨filled, shown, steps⟩ := parse_eq_ok.mp read
  have written : (Scope.itemName ++ "." ++ p.text).toList =
      Scope.itemName.toList ++ '.' :: Text.trim text.toList := by
    rw [shown]
    simp [String.toList_append]
  have trimmed : Text.trim (Scope.itemName ++ "." ++ p.text).toList =
      Scope.itemName.toList ++ '.' :: Text.trim text.toList := by
    have kept : Text.trim (Scope.itemName.toList ++ ['.'] ++ Text.trim text.toList) =
        Scope.itemName.toList ++ ['.'] ++ Text.trim text.toList :=
      trim_append rfl (by decide) filled
    rw [written]
    simpa using kept
  have root : segmentSteps Scope.itemName.toList = .ok [.key Scope.itemName] := rfl
  refine parse_eq_ok.mpr ⟨?_, ?_, ?_⟩
  · rw [trimmed]
    exact List.append_ne_nil_of_right_ne_nil _ (List.cons_ne_nil _ _)
  · rw [trimmed, ← written, String.ofList_toList]
  · rw [trimmed, segments_append (by decide), stepsOf, root, steps]
    rfl

end Path

namespace Scope

/-- Resolving cannot tell scopes apart whose bindings stand for the same JSON, so not a scope
from the one in which each binding is replaced by its JSON. Where `item` is bound to an item,
in one way or the other, `item.` and a path leads to what the path leads a check to, or both
lead nowhere. -/
theorem bindings_read_as_json (s : Scope) :
    (∀ t : Scope, t.asValues = s.asValues → t.Indistinct s) ∧ s.asValues.Indistinct s ∧
    ∀ (item : Item) (b : Binding), s.lookup itemName = some b → b.toJson = .object item →
      ∀ (text : String) (p : Path), Path.parse text = .ok p →
        ∃ q, Path.parse (itemName ++ "." ++ p.text) = .ok q ∧
          s.resolvePath q = (item.resolve? p).elim (.error ⟨itemName ++ "." ++ p.text⟩) .ok := by
  refine ⟨fun t same => .of_asValues same, .of_paths s.resolvePath_asValues,
    fun item b bound same text p read => ⟨_, Path.parse_below read, ?_⟩⟩
  have led : b.walk p.steps = item.resolve? p := Binding.walk_congr (b := .item item) same p.steps
  simp only [resolvePath, bound, Option.bind_some, led]
  cases item.resolve? p with
  | none => rfl
  | some v => rfl

/-- A disk in two zones, with the ports it is reached at. -/
def sampleDisk : Item :=
  [("zones", .array [.object [("name", .string "a")], .object [("name", .string "b")]]),
    ("ports", .object [("22", .string "closed")])]

/-- The results so far, and within a turn the disk itself. -/
def diskTurn : Scope :=
  ((empty.bind discoveriesName (.discoveries [("disks",
    { discoveryId := "disks", status := .emitted, items := [sampleDisk] })])).enter).bind itemName
      (.item sampleDisk)

/-- What is bound as an item and as results reads as if it were JSON, and the blanks around the
path of a check are none of it. -/
theorem diskTurn_reads :
    diskTurn.lookup itemName = some (.item sampleDisk) ∧
    Path.parse " zones[].name " = .ok ⟨"zones[].name", [.key "zones", .flatten, .key "name"]⟩ ∧
    diskTurn.asValues.Indistinct diskTurn ∧
    ∃ q, Path.parse "item.zones[].name" = .ok q ∧
      diskTurn.resolvePath q = .ok (.array [.string "a", .string "b"]) := by
  have read : Path.parse " zones[].name " =
      .ok ⟨"zones[].name", [.key "zones", .flatten, .key "name"]⟩ := by decide +kernel
  have value : sampleDisk.resolve? ⟨"zones[].name", [.key "zones", .flatten, .key "name"]⟩ =
      some (.array [.string "a", .string "b"]) := rfl
  obtain ⟨_, indistinct, below⟩ := diskTurn.bindings_read_as_json
  obtain ⟨q, parsed, led⟩ := below sampleDisk (.item sampleDisk) rfl rfl " zones[].name " _ read
  rw [value] at led
  have text : itemName ++ "." ++ "zones[].name" = "item.zones[].name" := by decide
  exact ⟨rfl, read, indistinct, q, text ▸ parsed, led⟩

end Scope

end CloudAudit
