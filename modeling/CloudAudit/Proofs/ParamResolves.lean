import CloudAudit.Proofs.CatalogAccepted
import CloudAudit.Proofs.ScopeReads
import CloudAudit.Proofs.TemplateMarkers

set_option autoImplicit false

/- What parameter trees resolve to. Texts are templates and become what these resolve to; all
else stays in its place. A tree fails at its first path that leads nowhere, and of named fields
only those fail that have such a path. -/
namespace CloudAudit

namespace Template

/-- Paths of a text that reads as a template. -/
def pathsIn (text : String) : List Path :=
  match parse text with
  | .ok t => t.paths
  | .error _ => []

end Template

/-- Paths of all texts in a value, in the order of the document. -/
def Json.templatePaths (w : Json) : List Path := w.texts.flatMap Template.pathsIn

namespace Param

mutual

theorem paths_of_compile : ∀ (w : Json) {p : Param},
    compile w = .ok p → p.paths = w.templatePaths
  | .string text, p, compiled => by
    rw [compile] at compiled
    obtain ⟨t, read, rfl⟩ := map_eq_ok.mp compiled
    simp only [paths, Json.templatePaths, Json.texts, List.flatMap_singleton, Template.pathsIn,
      read]
  | .array items, p, compiled => by
    rw [compile] at compiled
    obtain ⟨ps, each, rfl⟩ := map_eq_ok.mp compiled
    exact paths_of_compileItems items each
  | .object fields, p, compiled => by
    rw [compile] at compiled
    obtain ⟨ps, each, rfl⟩ := map_eq_ok.mp compiled
    exact paths_of_compileFields fields each
  | .null, p, compiled => by
    cases compiled
    rfl
  | .bool b, p, compiled => by
    cases compiled
    rfl
  | .number n, p, compiled => by
    cases compiled
    rfl

theorem paths_of_compileItems : ∀ (items : List Json) {ps : List Param},
    compileItems items = .ok ps → itemPaths ps = (Json.itemTexts items).flatMap Template.pathsIn
  | [], ps, compiled => by
    cases compiled
    rfl
  | w :: rest, ps, compiled => by
    rw [compileItems] at compiled
    obtain ⟨p, more, here, others, rfl⟩ := pair_eq_ok.mp compiled
    rw [itemPaths, Json.itemTexts, List.flatMap_append, paths_of_compileItems rest others,
      paths_of_compile w here]
    rfl

theorem paths_of_compileFields : ∀ (fields : List (String × Json)) {ps : List (String × Param)},
    compileFields fields = .ok ps →
      fieldPaths ps = (Json.fieldTexts fields).flatMap Template.pathsIn
  | [], ps, compiled => by
    cases compiled
    rfl
  | (_, w) :: rest, ps, compiled => by
    rw [compileFields] at compiled
    obtain ⟨p, more, here, others, rfl⟩ := pair_eq_ok.mp compiled
    rw [fieldPaths, Json.fieldTexts, List.flatMap_append, paths_of_compileFields rest others,
      paths_of_compile w here]
    rfl

end

end Param

namespace Scope

/-! The first path that leads nowhere. -/

/-- The path leads to no value. -/
def lost (s : Scope) (q : Path) : Bool :=
  match s.resolvePath q with
  | .ok _ => false
  | .error _ => true

/-- What is said of the first path that leads nowhere. -/
def firstLost? (s : Scope) (paths : List Path) : Option PathNotFound :=
  (paths.find? s.lost).map fun q => ⟨q.text⟩

theorem firstLost?_append (s : Scope) (first second : List Path) :
    s.firstLost? (first ++ second) = (s.firstLost? first).or (s.firstLost? second) := by
  rw [firstLost?, List.find?_append, Option.map_or, firstLost?, firstLost?]

theorem firstLost?_isSome (s : Scope) (paths : List Path) :
    (∃ e, s.firstLost? paths = some e) ↔ ∃ q ∈ paths, s.lost q = true := by
  rw [← Option.isSome_iff_exists, firstLost?, Option.isSome_map, List.find?_isSome]

theorem resolvePath_error {s : Scope} {q : Path} {e : PathNotFound}
    (nowhere : s.resolvePath q = .error e) : e = ⟨q.text⟩ := by
  simp only [resolvePath] at nowhere
  split at nowhere
  · cases nowhere
  · exact (Except.error.inj nowhere).symm

/-- A path that leads nowhere is reported with its text. -/
theorem fault?_resolvePath (s : Scope) (q : Path) :
    fault? (s.resolvePath q) = s.firstLost? [q] := by
  cases led : s.resolvePath q with
  | ok v => simp [fault?, firstLost?, lost, led]
  | error e => simp [fault?, firstLost?, lost, led, resolvePath_error led]

theorem fault?_resolveExpr (s : Scope) (e : Expr) :
    fault? (s.resolveExpr e) = s.firstLost? (Template.paths ⟨"", [.expr e]⟩) := by
  cases e with
  | literal v => rfl
  | path q => exact s.fault?_resolvePath q

theorem fault?_resolveSegments (s : Scope) (segments : List Segment) :
    fault? (s.resolveSegments segments) = s.firstLost? (Template.paths ⟨"", segments⟩) := by
  induction segments with
  | nil => rfl
  | cons segment rest ih =>
    cases segment with
    | text t =>
      rw [resolveSegments, fault?_map, ih]
      rfl
    | expr e =>
      rw [resolveSegments, fault?_pair, ih, fault?_resolveExpr, ← firstLost?_append]
      simp only [Template.paths, ← List.filterMap_append, List.singleton_append]

theorem fault?_resolve (s : Scope) (t : Template) :
    fault? (s.resolve t) = s.firstLost? t.paths := by
  obtain ⟨source, segments⟩ := t
  unfold resolve Template.single?
  split
  · next e single =>
    split at single
    · next only =>
      obtain rfl := Option.some.inj single
      obtain rfl : segments = [.expr _] := only
      rw [fault?_resolveExpr]
      rfl
    · cases single
  · rw [fault?_map, fault?_resolveSegments]
    rfl

mutual

/-- Resolving a tree fails at its first path that leads nowhere, and at no other. -/
theorem fault?_resolveParam (s : Scope) : ∀ p : Param,
    fault? (s.resolveParam p) = s.firstLost? p.paths
  | .template t => by rw [resolveParam, fault?_resolve, Param.paths]
  | .literal v => rfl
  | .list items => by rw [resolveParam, fault?_map, fault?_resolveItems s items, Param.paths]
  | .map fields => by rw [resolveParam, fault?_map, fault?_resolveEntries s fields, Param.paths]

theorem fault?_resolveItems (s : Scope) : ∀ items : List Param,
    fault? (s.resolveItems items) = s.firstLost? (Param.itemPaths items)
  | [] => rfl
  | p :: rest => by
    rw [resolveItems, fault?_pair, fault?_resolveParam s p, fault?_resolveItems s rest,
      Param.itemPaths, firstLost?_append]

theorem fault?_resolveEntries (s : Scope) : ∀ fields : List (String × Param),
    fault? (s.resolveEntries fields) = s.firstLost? (Param.fieldPaths fields)
  | [] => rfl
  | (_, p) :: rest => by
    rw [resolveEntries, fault?_pair, fault?_resolveParam s p, fault?_resolveEntries s rest,
      Param.fieldPaths, firstLost?_append]

end

/-! Values with their texts replaced. -/

/-- A value with what the templates in its texts resolve to; all else stays in place. -/
inductive Filled (s : Scope) : Json → Json → Prop
  | null : Filled s .null .null
  | bool (b : Bool) : Filled s (.bool b) (.bool b)
  | number (n : Number) : Filled s (.number n) (.number n)
  | text {text : String} {t : Template} {v : Json} : Template.parse text = .ok t →
      s.resolve t = .ok v → Filled s (.string text) v
  | array {items vs : List Json} : List.Forall₂ (Filled s) items vs →
      Filled s (.array items) (.array vs)
  | object {fields filled : Fields} : filled.map Prod.fst = fields.map Prod.fst →
      List.Forall₂ (Filled s) (fields.map Prod.snd) (filled.map Prod.snd) →
      Filled s (.object fields) (.object filled)

section

variable {s : Scope}

theorem filled_text {text : String} {t : Template} (read : Template.parse text = .ok t) {v : Json} :
    Filled s (.string text) v ↔ s.resolve t = .ok v := by
  constructor
  · rintro (_ | _ | _ | ⟨other, resolved⟩ | _ | _)
    obtain rfl := Except.ok.inj (read.symm.trans other)
    exact resolved
  · exact .text read

theorem filled_array {items : List Json} {v : Json} :
    Filled s (.array items) v ↔ ∃ vs, List.Forall₂ (Filled s) items vs ∧ .array vs = v := by
  constructor
  · rintro (_ | _ | _ | _ | each | _)
    exact ⟨_, each, rfl⟩
  · rintro ⟨vs, each, rfl⟩
    exact .array each

/-- Fields with the same names in the same order and their values filled. -/
def FilledFields (s : Scope) (fields filled : Fields) : Prop :=
  filled.map Prod.fst = fields.map Prod.fst ∧
    List.Forall₂ (Filled s) (fields.map Prod.snd) (filled.map Prod.snd)

theorem filled_object {fields : Fields} {v : Json} :
    Filled s (.object fields) v ↔ ∃ filled, s.FilledFields fields filled ∧ .object filled = v := by
  constructor
  · rintro (_ | _ | _ | _ | _ | ⟨names, each⟩)
    exact ⟨_, ⟨names, each⟩, rfl⟩
  · rintro ⟨filled, ⟨names, each⟩, rfl⟩
    exact .object names each

theorem filledFields_cons {name : String} {w : Json} {rest filled : Fields} :
    s.FilledFields ((name, w) :: rest) filled ↔
      ∃ v more, Filled s w v ∧ s.FilledFields rest more ∧ (name, v) :: more = filled := by
  constructor
  · rintro ⟨names, each⟩
    cases filled with
    | nil => cases names
    | cons field more =>
      obtain ⟨rfl, others⟩ := List.cons.inj names
      obtain ⟨here, later⟩ := List.forall₂_cons.mp each
      exact ⟨_, _, here, ⟨others, later⟩, rfl⟩
  · rintro ⟨v, more, here, ⟨names, each⟩, rfl⟩
    exact ⟨congrArg (name :: ·) names, .cons here each⟩

mutual

/-- A compiled tree resolves to what fills the value it was compiled from. -/
theorem resolveParam_eq_ok : ∀ (w : Json) {p : Param}, Param.compile w = .ok p → ∀ {v : Json},
    s.resolveParam p = .ok v ↔ Filled s w v
  | .string text, p, compiled, v => by
    rw [Param.compile] at compiled
    obtain ⟨t, read, rfl⟩ := map_eq_ok.mp compiled
    rw [resolveParam, filled_text read]
  | .array items, p, compiled, v => by
    rw [Param.compile] at compiled
    obtain ⟨ps, each, rfl⟩ := map_eq_ok.mp compiled
    rw [resolveParam, map_eq_ok, filled_array]
    simp only [resolveItems_eq_ok items each]
  | .object fields, p, compiled, v => by
    rw [Param.compile] at compiled
    obtain ⟨ps, each, rfl⟩ := map_eq_ok.mp compiled
    rw [resolveParam, map_eq_ok, filled_object]
    simp only [resolveEntries_eq_ok fields each]
  | .null, p, compiled, v => by
    cases compiled
    rw [resolveParam, Except.ok.injEq]
    exact ⟨fun same => same ▸ .null, fun filled => by cases filled; rfl⟩
  | .bool b, p, compiled, v => by
    cases compiled
    rw [resolveParam, Except.ok.injEq]
    exact ⟨fun same => same ▸ .bool b, fun filled => by cases filled; rfl⟩
  | .number n, p, compiled, v => by
    cases compiled
    rw [resolveParam, Except.ok.injEq]
    exact ⟨fun same => same ▸ .number n, fun filled => by cases filled; rfl⟩

theorem resolveItems_eq_ok : ∀ (items : List Json) {ps : List Param},
    Param.compileItems items = .ok ps → ∀ {vs : List Json},
      s.resolveItems ps = .ok vs ↔ List.Forall₂ (Filled s) items vs
  | [], ps, compiled, vs => by
    cases compiled
    rw [resolveItems, Except.ok.injEq, List.forall₂_nil_left_iff, eq_comm]
  | w :: rest, ps, compiled, vs => by
    rw [Param.compileItems] at compiled
    obtain ⟨p, more, here, others, rfl⟩ := pair_eq_ok.mp compiled
    rw [resolveItems, pair_eq_ok, List.forall₂_cons_left_iff]
    simp only [resolveParam_eq_ok w here, resolveItems_eq_ok rest others, eq_comm (a := vs)]

theorem resolveEntries_eq_ok : ∀ (fields : List (String × Json)) {ps : List (String × Param)},
    Param.compileFields fields = .ok ps → ∀ {filled : Fields},
      s.resolveEntries ps = .ok filled ↔ s.FilledFields fields filled
  | [], ps, compiled, filled => by
    cases compiled
    rw [resolveEntries, Except.ok.injEq]
    constructor
    · rintro rfl
      exact ⟨rfl, .nil⟩
    · rintro ⟨names, _⟩
      exact (List.map_eq_nil_iff.mp names).symm
  | (name, w) :: rest, ps, compiled, filled => by
    rw [Param.compileFields] at compiled
    obtain ⟨p, more, here, others, rfl⟩ := pair_eq_ok.mp compiled
    rw [resolveEntries, pair_eq_ok, filledFields_cons]
    simp only [resolveParam_eq_ok w here, resolveEntries_eq_ok rest others]

end

/-! Values without markers. -/

theorem resolve_plain (s : Scope) (text : String) :
    s.resolve ⟨text, Template.textSegment text.toList⟩ = .ok (.string text) := by
  rw [Template.textSegment]
  split
  · next none =>
    rw [String.toList_eq_nil_iff.mp none]
    rfl
  · simp [resolve, Template.single?, resolveSegments, Except.map]

mutual

/-- Texts without markers fill themselves. -/
theorem filled_self (s : Scope) : ∀ w : Json, (∀ text ∈ w.texts, ¬Template.Marked text) →
    Filled s w w
  | .string text, plain =>
    .text (Template.parse_plain (plain text (List.mem_singleton_self _))) (s.resolve_plain text)
  | .array items, plain => .array (filled_items s items plain)
  | .object fields, plain => .object rfl (filled_values s fields plain)
  | .null, _ => .null
  | .bool b, _ => .bool b
  | .number n, _ => .number n

theorem filled_items (s : Scope) : ∀ items : List Json,
    (∀ text ∈ Json.itemTexts items, ¬Template.Marked text) → List.Forall₂ (Filled s) items items
  | [], _ => .nil
  | w :: rest, plain =>
    .cons (filled_self s w fun text inside => plain text (List.mem_append_left _ inside))
      (filled_items s rest fun text inside => plain text (List.mem_append_right _ inside))

theorem filled_values (s : Scope) : ∀ fields : Fields,
    (∀ text ∈ Json.fieldTexts fields, ¬Template.Marked text) →
      List.Forall₂ (Filled s) (fields.map Prod.snd) (fields.map Prod.snd)
  | [], _ => .nil
  | (_, w) :: rest, plain =>
    .cons (filled_self s w fun text inside => plain text (List.mem_append_left _ inside))
      (filled_values s rest fun text inside => plain text (List.mem_append_right _ inside))

end

/-! Named fields. -/

/-- A field has the name of its parameter, and its value, or null where there is none. -/
structure FieldOf (s : Scope) (param : String × Param) (field : String × Json) : Prop where
  name : field.1 = param.1
  resolved : ∀ v, s.resolveParam param.2 = .ok v → field.2 = v
  unresolved : ∀ e, s.resolveParam param.2 = .error e → field.2 = .null

theorem resolveFields_each (s : Scope) (params : List (String × Param)) :
    List.Forall₂ s.FieldOf params (s.resolveFields params) := by
  rw [resolveFields, List.forall₂_map_right_iff, List.forall₂_same]
  rintro ⟨name, p⟩ _
  exact ⟨rfl, fun v resolved => by simp only [resolved],
    fun e unresolved => by simp only [unresolved]⟩

/-- Parameters resolve together just when each of them does by itself. -/
theorem resolveParams_eq_ok {params : List (String × Param)} {fields : Fields} :
    s.resolveParams params = .ok fields ↔ List.Forall₂
      (fun param field => field.1 = param.1 ∧ s.resolveParam param.2 = .ok field.2)
      params fields := by
  induction params generalizing fields with
  | nil => rw [resolveParams, Except.ok.injEq, List.forall₂_nil_left_iff, eq_comm]
  | cons param rest ih =>
    rw [resolveParams, pair_eq_ok, List.forall₂_cons_left_iff]
    simp only [mapError_eq_ok, ih, Prod.exists]
    constructor
    · rintro ⟨v, more, here, others, rfl⟩
      exact ⟨_, _, _, ⟨rfl, here⟩, others, rfl⟩
    · rintro ⟨name, v, more, ⟨rfl, here⟩, others, rfl⟩
      exact ⟨v, more, here, others, rfl⟩

theorem resolveParams_isOk {params : List (String × Param)} :
    (∃ fields, s.resolveParams params = .ok fields) ↔
      ∀ param ∈ params, ∃ v, s.resolveParam param.2 = .ok v := by
  simp only [resolveParams_eq_ok, exists_forall₂, Prod.exists, exists_and_left, exists_eq_left]

theorem resolveFields_of_resolveParams {params : List (String × Param)} {fields : Fields}
    (together : s.resolveParams params = .ok fields) : s.resolveFields params = fields := by
  have each := resolveParams_eq_ok.mp together
  clear together
  induction each with
  | nil => rfl
  | @cons param field rest fields here _ ih =>
    obtain ⟨name, resolved⟩ := here
    rw [← ih]
    simp only [resolveFields, List.map_cons, resolved, ← name]

end

/-- What parameters resolve to in a scope. -/
structure ParamLaws (s : Scope) : Prop where
  /-- A tree that resolves has the shape of its value. -/
  filled : ∀ w p, Param.compile w = .ok p → ∀ v, s.resolveParam p = .ok v ↔ s.Filled w v
  /-- It fails when a path in it leads nowhere. -/
  fails : ∀ w p, Param.compile w = .ok p →
    ((∃ e, s.resolveParam p = .error e) ↔ ∃ q ∈ w.templatePaths, s.lost q = true)
  /-- The first such path is reported. -/
  first : ∀ w p, Param.compile w = .ok p →
    ∀ e, s.resolveParam p = .error e ↔ s.firstLost? w.templatePaths = some e
  /-- Without markers a value is its own template. -/
  plain : ∀ w : Json, (∀ text ∈ w.texts, ¬Template.Marked text) →
    ∃ p, Param.compile w = .ok p ∧ s.resolveParam p = .ok w
  /-- Every field is there, null if its parameter does not resolve. -/
  names : ∀ params, (s.resolveFields params).map Prod.fst = params.map Prod.fst
  each : ∀ params, List.Forall₂ s.FieldOf params (s.resolveFields params)
  /-- Parameters that are needed together fail when one of them does, else they are the fields. -/
  together : ∀ params, (∃ fields, s.resolveParams params = .ok fields) ↔
    ∀ param ∈ params, ∃ v, s.resolveParam param.2 = .ok v
  agree : ∀ params fields, s.resolveParams params = .ok fields → s.resolveFields params = fields

/-- Trees of parameters keep their shape or fail at their first lost path; fields never fail. -/
theorem params_resolve_in_place (s : Scope) : s.ParamLaws where
  filled w p compiled v := resolveParam_eq_ok w compiled
  fails w p compiled := by
    rw [← firstLost?_isSome, ← Param.paths_of_compile w compiled]
    simp only [← fault?_resolveParam, fault?_eq_some]
  first w p compiled e := by
    rw [← Param.paths_of_compile w compiled, ← fault?_resolveParam, fault?_eq_some]
  plain w unmarked := by
    obtain ⟨p, compiled⟩ := (Param.compile_ok w).mpr fun text inside =>
      ⟨_, Template.parse_plain (unmarked text inside)⟩
    exact ⟨p, compiled, (resolveParam_eq_ok w compiled).mpr (filled_self s w unmarked)⟩
  names params := by
    rw [resolveFields, List.map_map]
    rfl
  each params := resolveFields_each s params
  together params := resolveParams_isOk
  agree params fields := resolveFields_of_resolveParams

/-- A text that is one path, and what it compiles to. -/
def marker (path : String) : Json := .string ("\x7b\x7b " ++ path ++ " \x7d\x7d")

def markerParam (path : String) (steps : List Step) : Param :=
  .template ⟨"\x7b\x7b " ++ path ++ " \x7d\x7d", [.expr (.path ⟨path, steps⟩)]⟩

/-- Parameters of a call, as written and compiled. -/
def sampleFields : Fields :=
  [("project", marker "account"), ("max", .int 10),
    ("tags", .array [.string "a", .object [("zone", marker "item.zone")], marker "item.name"])]

def sampleParams : List (String × Param) :=
  [("project", markerParam "account" [.key "account"]), ("max", .literal (.int 10)),
    ("tags", .list [.template ⟨"a", [.text "a"]⟩,
      .map [("zone", markerParam "item.zone" [.key "item", .key "zone"])],
      markerParam "item.name" [.key "item", .key "name"]])]

theorem marker_compiled {path : String} {steps : List Step}
    (read : Template.parse ("\x7b\x7b " ++ path ++ " \x7d\x7d") =
      .ok ⟨"\x7b\x7b " ++ path ++ " \x7d\x7d", [.expr (.path ⟨path, steps⟩)]⟩) :
    Param.compile (marker path) = .ok (markerParam path steps) := by
  rw [marker, Param.compile, read]
  rfl

theorem sampleFields_compiled : Param.compileFields sampleFields = .ok sampleParams := by
  have account := @marker_compiled "account" [.key "account"]
    (Template.parse_marker rfl rfl (by decide) rfl)
  have zone := @marker_compiled "item.zone" [.key "item", .key "zone"]
    (Template.parse_marker rfl rfl (by decide) rfl)
  have name := @marker_compiled "item.name" [.key "item", .key "name"]
    (Template.parse_marker rfl rfl (by decide) rfl)
  have plain : Template.parse "a" = .ok ⟨"a", [.text "a"]⟩ := Template.parse_plain (by decide)
  simp only [sampleFields, Param.compileFields, Param.compileItems, Param.compile, Json.int, account,
    zone, name, plain]
  rfl

/-- A scope outside of any turn. -/
def callScope : Scope := ofPlace ⟨"north", "compute", "main", "west"⟩

/-- Without an item the first path into it is reported, and of the fields the tags are null. -/
theorem tags_need_item :
    callScope.ParamLaws ∧ Param.compile (.object sampleFields) = .ok (.map sampleParams) ∧
      callScope.resolveParam (.map sampleParams) = .error ⟨"item.zone"⟩ ∧
      callScope.firstLost? (Json.object sampleFields).templatePaths = some ⟨"item.zone"⟩ ∧
      callScope.resolveFields sampleParams =
        [("project", .string "main"), ("max", .int 10), ("tags", .null)] := by
  have laws := callScope.params_resolve_in_place
  have compiled : Param.compile (.object sampleFields) = .ok (.map sampleParams) :=
    congrArg (Except.map Param.map) sampleFields_compiled
  exact ⟨laws, compiled, rfl, (laws.first _ _ compiled _).mp rfl, rfl⟩

end Scope

end CloudAudit
