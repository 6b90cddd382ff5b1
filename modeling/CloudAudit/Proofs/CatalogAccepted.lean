import CloudAudit.Proofs.CatalogChecks
import CloudAudit.Proofs.TextTrim

set_option autoImplicit false

/- Which documents compile. What is asked of a document is asked of its parts, one by
one: names that are not blank, texts that read as actions, templates, operators and
paths, a plan for the discoveries, and checks that can be told apart and have an aim. -/
namespace CloudAudit

namespace Json

mutual

/-- Texts inside a value. The keys of an object are no texts of it. -/
def texts : Json → List String
  | .string s => [s]
  | .array items => itemTexts items
  | .object fields => fieldTexts fields
  | .null => []
  | .bool _ => []
  | .number _ => []

def itemTexts : List Json → List String
  | [] => []
  | v :: rest => v.texts ++ itemTexts rest

def fieldTexts : List (String × Json) → List String
  | [] => []
  | (_, v) :: rest => v.texts ++ fieldTexts rest

end

end Json

/-- All of these texts read as templates. -/
def Template.Readable (texts : List String) : Prop :=
  ∀ text ∈ texts, ∃ t, Template.parse text = .ok t

/-! What is asked of the parts of a document. -/

structure CallEntry.Accepted (c : CallEntry) : Prop where
  action : ∃ a, Action.parse c.action = .ok a
  params : Template.Readable (Json.fieldTexts c.params)

structure EmitEntry.Accepted (e : EmitEntry) : Prop where
  item : Template.Readable (Json.fieldTexts e.item)
  itemsFor : Template.Readable e.itemsFor.toList
  filled : e.itemsFor = none → e.item ≠ []

structure DiscoveryEntry.Accepted (d : DiscoveryEntry) : Prop where
  named : Text.allBlank d.id = false
  called : d.calls ≠ []
  calls : ∀ c ∈ d.calls, c.Accepted
  emit : ∀ e ∈ d.emit, e.Accepted

structure ConditionEntry.Accepted (k : ConditionEntry) : Prop where
  operator : ∃ op, Operator.parse? k.operator = some op
  path : ∃ p, Path.parse k.path = .ok p

structure CheckEntry.Accepted (c : CheckEntry) : Prop where
  filled : c.conditions ≠ []
  conditions : ∀ k ∈ c.conditions, k.Accepted

structure Document.Accepted (doc : Document) : Prop where
  service : Text.allBlank doc.service = false
  provider : Text.allBlank doc.provider = false
  planned : Plan.WellFormed (doc.discovery.map Document.dependency)
  discoveries : ∀ d ∈ doc.discovery, d.Accepted
  distinct : (doc.checks.map (·.checkId)).Nodup
  aimed : ∀ c ∈ doc.checks, c.forEach ∈ doc.discovery.map (·.id)
  checks : ∀ c ∈ doc.checks, c.Accepted

namespace Template

variable {first second : List String}

theorem readable_append : Readable (first ++ second) ↔ Readable first ∧ Readable second :=
  List.forall_mem_append

end Template

namespace Param

mutual

theorem compile_ok : ∀ v : Json, (∃ p, compile v = .ok p) ↔ Template.Readable v.texts
  | .string s => by
    rw [compile, exists_map_ok, Json.texts, Template.Readable, List.forall_mem_singleton]
  | .array items => by rw [compile, exists_map_ok, Json.texts, compileItems_ok items]
  | .object fields => by rw [compile, exists_map_ok, Json.texts, compileFields_ok fields]
  | .null => ⟨fun _ _ member => (List.not_mem_nil member).elim, fun _ => ⟨_, rfl⟩⟩
  | .bool b => ⟨fun _ _ member => (List.not_mem_nil member).elim, fun _ => ⟨_, rfl⟩⟩
  | .number n => ⟨fun _ _ member => (List.not_mem_nil member).elim, fun _ => ⟨_, rfl⟩⟩

theorem compileItems_ok : ∀ items : List Json,
    (∃ ps, compileItems items = .ok ps) ↔ Template.Readable (Json.itemTexts items)
  | [] => ⟨fun _ _ member => (List.not_mem_nil member).elim, fun _ => ⟨_, rfl⟩⟩
  | v :: rest => by
    rw [compileItems, exists_pair_ok, Json.itemTexts, Template.readable_append, compile_ok v,
      compileItems_ok rest]

/-- Named values compile when all texts inside them read as templates. -/
theorem compileFields_ok : ∀ fields : List (String × Json),
    (∃ ps, compileFields fields = .ok ps) ↔ Template.Readable (Json.fieldTexts fields)
  | [] => ⟨fun _ _ member => (List.not_mem_nil member).elim, fun _ => ⟨_, rfl⟩⟩
  | (_, v) :: rest => by
    rw [compileFields, exists_pair_ok, Json.fieldTexts, Template.readable_append, compile_ok v,
      compileFields_ok rest]

end

theorem compileFields_isEmpty {fields : List (String × Json)} {ps : List (String × Param)}
    (compiled : compileFields fields = .ok ps) : ps.isEmpty = fields.isEmpty := by
  cases fields with
  | nil =>
    cases compiled
    rfl
  | cons field rest =>
    rw [compileFields] at compiled
    obtain ⟨_, _, compiled⟩ := bind_eq_ok.mp compiled
    obtain ⟨_, _, compiled⟩ := bind_eq_ok.mp compiled
    cases compiled
    rfl

end Param

namespace Document

variable {service : String}

theorem liftTemplate_ok {α : Type} {location : String} {x : Except TemplateError α} :
    (∃ a, liftTemplate service location x = .ok a) ↔ ∃ a, x = .ok a := by
  simp only [liftTemplate, mapError_eq_ok]

theorem compileCall_ok {id : String} {position : Nat} (c : CallEntry) :
    (∃ k, compileCall service id position c = .ok k) ↔ c.Accepted := by
  rw [compileCall, exists_pair_ok, liftTemplate_ok, Param.compileFields_ok]
  simp only [mapError_eq_ok]
  exact ⟨fun both => ⟨both.1, both.2⟩, fun sound => ⟨sound.action, sound.params⟩⟩

theorem compileCalls_ok {id : String} (cs : List CallEntry) : ∀ position,
    (∃ ks, compileCalls service id position cs = .ok ks) ↔ ∀ c ∈ cs, c.Accepted := by
  induction cs with
  | nil => exact fun _ => ⟨fun _ _ member => (List.not_mem_nil member).elim, fun _ => ⟨_, rfl⟩⟩
  | cons c rest ih =>
    intro position
    rw [compileCalls, exists_pair_ok, compileCall_ok, ih, List.forall_mem_cons]

theorem compileEmit_ok {id : String} (e : EmitEntry) :
    (∃ m, compileEmit service id e = .ok m) ↔ e.Accepted := by
  obtain ⟨itemsFor, bindAs, item⟩ := e
  rw [compileEmit]
  cases itemsFor with
  | some collection =>
    simp only [exists_pair_ok, liftTemplate_ok, Param.compileFields_ok]
    constructor
    · rintro ⟨fields, read⟩
      exact ⟨fields, by simpa [Template.Readable] using read, by simp⟩
    · intro sound
      exact ⟨sound.item, sound.itemsFor collection (by simp)⟩
  | none =>
    have made : ∀ (cause : CatalogError) fields, Param.compileFields item = .ok fields →
        ((∃ m, (if fields.isEmpty then .error cause else pure (Emit.single fields) :
          Except CatalogError Emit) = .ok m) ↔ item ≠ []) := by
      intro cause fields compiled
      rw [Param.compileFields_isEmpty compiled]
      cases item with
      | nil => simp
      | cons field rest => exact ⟨fun _ => List.cons_ne_nil _ _, fun _ => ⟨_, rfl⟩⟩
    simp only [exists_bind_ok, liftTemplate, mapError_eq_ok]
    constructor
    · rintro ⟨fields, compiled, single⟩
      exact ⟨(Param.compileFields_ok item).mp ⟨fields, compiled⟩, by simp [Template.Readable],
        fun _ => (made _ fields compiled).mp single⟩
    · intro sound
      obtain ⟨fields, compiled⟩ := (Param.compileFields_ok item).mpr sound.item
      exact ⟨fields, compiled, (made _ fields compiled).mpr (sound.filled rfl)⟩

theorem compileDiscovery_ok (d : DiscoveryEntry) :
    (∃ k, compileDiscovery service d = .ok k) ↔ d.Accepted := by
  have parts : (∃ k, compileDiscovery service d = .ok k) ↔
      Text.allBlank d.id = false ∧ d.calls ≠ [] ∧ (∀ c ∈ d.calls, c.Accepted) ∧
        ∀ e ∈ d.emit, e.Accepted := by
    simp only [compileDiscovery, guard_eq_ok, exists_and_left, Bool.not_eq_true,
      List.isEmpty_eq_false_iff]
    cases d.emit with
    | none =>
      simp only [exists_bind_ok, exists_pure_ok, and_true, compileCalls_ok, Option.mem_def,
        reduceCtorEq, false_implies, implies_true, Ne]
    | some e =>
      have emitted : (∃ m, (some <$> compileEmit service d.id e) = .ok m) ↔ e.Accepted :=
        (exists_map_ok some).trans (compileEmit_ok e)
      simp only [exists_bind_ok, exists_pure_ok, and_true, exists_and_right, compileCalls_ok,
        emitted, Option.mem_def, Option.some.injEq, forall_eq']
  rw [parts]
  exact ⟨fun ⟨named, called, calls, emit⟩ => ⟨named, called, calls, emit⟩,
    fun sound => ⟨sound.named, sound.called, sound.calls, sound.emit⟩⟩

theorem compileCondition_ok {check : String} (k : ConditionEntry) :
    (∃ m, compileCondition service check k = .ok m) ↔ k.Accepted := by
  rw [compileCondition]
  cases known : Operator.parse? k.operator with
  | none =>
    constructor
    · rintro ⟨_, compiled⟩
      cases compiled
    · intro sound
      obtain ⟨op, read⟩ := sound.operator
      rw [known] at read
      cases read
  | some op =>
    simp only [exists_bind_ok, exists_pure_ok, and_true, liftTemplate_ok]
    exact ⟨fun read => ⟨⟨op, known⟩, read⟩, fun sound => sound.path⟩

theorem compileCheck_ok (c : CheckEntry) :
    (∃ k, compileCheck service c = .ok k) ↔ c.Accepted := by
  simp only [compileCheck, guard_eq_ok, exists_and_left, exists_bind_ok, exists_pure_ok, and_true,
    mapM_eq_ok, exists_forall₂, compileCondition_ok]
  constructor
  · rintro ⟨filled, conditions⟩
    exact ⟨by simpa using filled, conditions⟩
  · intro sound
    exact ⟨by simpa using sound.filled, sound.conditions⟩

/-- A document compiles exactly when it is accepted. -/
theorem compile_ok (doc : Document) : (∃ c, doc.compile = .ok c) ↔ doc.Accepted := by
  constructor
  · rintro ⟨c, compiled⟩
    obtain ⟨⟨service, provider⟩, planned, each, checked, _⟩ := Catalog.compile_eq_ok.mp compiled
    obtain ⟨distinct, sound, compiledChecks⟩ := (compileChecks_eq_ok doc.checks).mp checked
    exact {
      service := Text.trimmed_ne_empty.mp service
      provider := Text.trimmed_ne_empty.mp provider
      planned := Plan.wellFormed_of_build planned
      discoveries := fun d member => (compileDiscovery_ok d).mp <|
        exists_forall₂.mp ⟨_, mapM_eq_ok.mp each⟩ d member
      distinct := distinct
      aimed := fun check member => (sound check member).2
      checks := fun check member => (compileCheck_ok check).mp <|
        exists_forall₂.mp ⟨_, compiledChecks⟩ check member }
  · intro sound
    obtain ⟨plan, planned⟩ := Plan.build_of_wellFormed sound.planned
    have own : ∀ d ∈ doc.discovery, ∃ k, compileDiscovery (Text.trimmed doc.service) d = .ok k :=
      fun d member => (compileDiscovery_ok d).mpr (sound.discoveries d member)
    have ownChecks : ∀ check ∈ doc.checks,
        ∃ k, compileCheck (Text.trimmed doc.service) check = .ok k :=
      fun check member => (compileCheck_ok check).mpr (sound.checks check member)
    obtain ⟨discoveries, each⟩ := exists_forall₂.mpr own
    obtain ⟨checks, compiledChecks⟩ := exists_forall₂.mpr ownChecks
    refine ⟨⟨Text.trimmed doc.provider, Text.trimmed doc.service, doc.coverage, doc.version,
      discoveries, checks, plan⟩, Catalog.compile_eq_ok.mpr ?_⟩
    refine ⟨⟨Text.trimmed_ne_empty.mpr sound.service, Text.trimmed_ne_empty.mpr sound.provider⟩,
      planned, mapM_eq_ok.mpr each, (compileChecks_eq_ok doc.checks).mpr ?_, rfl, rfl, rfl, rfl⟩
    exact ⟨sound.distinct, fun check member => ⟨List.not_mem_nil, sound.aimed check member⟩,
      compiledChecks⟩

end Document

end CloudAudit
