import CloudAudit.Catalog.Compile
import CloudAudit.Catalog.JsonText
import CloudAudit.Proofs.Success
import Mathlib.Data.List.Basic
import Mathlib.Data.List.Nodup

set_option autoImplicit false

/- Documents written as JSON read back as they were. Each kind of field has its law, and a
record reads back when its fields do, so the laws follow the shape of a document. -/
namespace CloudAudit

open Reader

namespace Json

theorem text_string (s : String) : reader.text (.string s) = some s := rfl

theorem fields_object (fields : Fields) : reader.fields (.object fields) = some fields := rfl

theorem value_any (v : Json) : reader.value v = some v := rfl

section

variable {α : Type} {read : Json → Option α} {write : α → Json}

theorem undoes_listOf (undoes : Undoes read write) :
    Undoes (reader.listOf read) fun as => .array (as.map write) := undoes.mapM

/-- An optional value is told from a missing one, as no value is written as null. -/
theorem nullable_write (undoes : Undoes read write) (filled : ∀ a, (write a).isNull = false)
    (o : Option α) : reader.nullable read (some ((o.map write).getD .null)) = some o := by
  cases o with
  | none => rfl
  | some a =>
    have present : reader.optional (write a) = some (some (write a)) := by
      simp [reader, filled a]
    rw [Option.map_some, Option.getD_some, nullable, present]
    simp [undoes a]

theorem nullable_text (o : Option String) :
    reader.nullable reader.text (some (ofOption o)) = some o := by
  have written : ofOption o = (o.map .string).getD .null := by cases o <;> rfl
  rw [written]
  exact nullable_write text_string (fun _ => rfl) o

theorem undoes_strings : Undoes (reader.listOf reader.text) ofStrings := undoes_listOf text_string

/-- The name of a case reads as the case, when it is a spelling of that case. -/
theorem undoes_oneOf {spellings : List (String × α)} {name : α → String}
    (spelled : ∀ a, spellings.lookup (name a) = some a) :
    Undoes (reader.oneOf spellings) fun a => .string (name a) := by
  intro a
  have shown : reader.case (.string (name a)) = some (name a) := rfl
  rw [oneOf, shown, Option.bind_eq_bind, Option.bind_some, spelled]
  rfl

end

theorem undoes_coverage : Undoes (reader.oneOf Coverage.spellings) fun c => .string c.name :=
  undoes_oneOf fun c => by cases c <;> decide

theorem undoes_severity : Undoes (reader.oneOf Severity.spellings) fun s => .string s.name :=
  undoes_oneOf fun s => by cases s <;> decide

theorem undoes_logic : Undoes (reader.oneOf Logic.spellings) fun l => .string l.name :=
  undoes_oneOf fun l => by cases l <;> decide

theorem nullable_policy (o : Option FailurePolicy) :
    reader.nullable (reader.oneOf FailurePolicy.spellings)
      (some (ofOption (o.map FailurePolicy.name))) = some o := by
  have written : ofOption (o.map FailurePolicy.name) =
      (o.map fun p => .string p.name).getD .null := by cases o <;> rfl
  rw [written]
  exact nullable_write (undoes_oneOf fun p => by cases p <;> decide) (fun _ => rfl) o

/-- A field whose name does not repeat is found. -/
theorem only?_of_mem {fields : List (String × Json)} (distinct : (fields.map (·.1)).Nodup)
    {field : String × Json} (member : field ∈ fields) :
    only? fields field.1 = some (some field.2) := by
  have found : fields.filter (fun f => decide (f.1 = field.1)) = [field] := by
    induction fields with
    | nil => cases member
    | cons f rest ih =>
      obtain ⟨fresh, distinct⟩ := List.nodup_cons.mp distinct
      rcases List.mem_cons.mp member with rfl | later
      · rw [List.filter_cons_of_pos (by simp), List.filter_eq_nil_iff.mpr]
        intro other listed
        simp only [decide_eq_true_eq]
        exact fun same => fresh (List.mem_map.mpr ⟨other, listed, same⟩)
      · rw [List.filter_cons_of_neg, ih distinct later]
        simp only [decide_eq_true_eq]
        exact fun same => fresh (List.mem_map.mpr ⟨field, later, same.symm⟩)
  rw [only?, found]

/-- A record with exactly the declared fields, in order, has all slots filled. -/
theorem slots_object {names : List String} {fields : List (String × Json)}
    (declared : fields.map (·.1) = names) (distinct : names.Nodup) :
    reader.slots names (.object fields) = some (fields.map fun f => some f.2) := by
  subst declared
  have all : ∀ part : List (String × Json), (∀ f ∈ part, f ∈ fields) →
      (part.map (·.1)).mapM (only? fields) = some (part.map fun f => some f.2) := by
    intro part
    induction part with
    | nil => intro _; rfl
    | cons f rest ih =>
      intro inside
      rw [List.map_cons, List.mapM_cons, only?_of_mem distinct (inside f List.mem_cons_self),
        ih fun g listed => inside g (List.mem_cons_of_mem _ listed)]
      rfl
  have shape : reader.record (.object fields) = some (.named fields) := rfl
  rw [slots, shape, Option.bind_eq_bind, Option.bind_some, slots?, all fields fun _ => id]
  rfl

theorem undoes_call : Undoes reader.call CallEntry.toJson := by
  intro c
  have slots : reader.slots ["action", "params", "save_as"] c.toJson =
      some [some (.string c.action), some (.object c.params), some (ofOption c.saveAs)] :=
    slots_object rfl (by decide)
  simp only [call, slots, required, defaulted, text_string, fields_object, nullable_text,
    Option.bind_eq_bind, Option.bind_some]
  rfl

theorem undoes_emit : Undoes reader.emit EmitEntry.toJson := by
  intro e
  have slots : reader.slots ["items_for", "as", "item"] e.toJson =
      some [some (ofOption e.itemsFor), some (ofOption e.bindAs), some (.object e.item)] :=
    slots_object rfl (by decide)
  simp only [emit, slots, defaulted, fields_object, nullable_text, Option.bind_eq_bind,
    Option.bind_some]
  rfl

theorem undoes_discovery : Undoes reader.discovery DiscoveryEntry.toJson := by
  intro d
  have slots : reader.slots
      ["id", "calls", "for_each", "depends_on", "emit", "on_error", "id_field"] d.toJson =
      some [some (.string d.id), some (.array (d.calls.map CallEntry.toJson)),
        some (ofOption d.forEach), some (ofStrings d.dependsOn),
        some ((d.emit.map EmitEntry.toJson).getD .null),
        some (ofOption (d.onError.map FailurePolicy.name)), some (ofOption d.idField)] := by
    refine Eq.trans (slots_object rfl (by decide)) ?_
    cases d.emit <;> rfl
  have calls := undoes_listOf undoes_call d.calls
  have emit := nullable_write undoes_emit (fun _ => rfl) d.emit
  simp only [discovery, slots, required, defaulted, text_string, nullable_text, calls, emit,
    undoes_strings d.dependsOn, nullable_policy, Option.bind_eq_bind, Option.bind_some]
  rfl

theorem undoes_condition : Undoes reader.condition ConditionEntry.toJson := by
  intro c
  have slots : reader.slots ["path", "operator", "expected"] c.toJson =
      some [some (.string c.path), some (.string c.operator), some c.expected] :=
    slots_object rfl (by decide)
  simp only [condition, slots, required, defaulted, text_string, value_any, Option.bind_eq_bind,
    Option.bind_some]
  rfl

theorem undoes_check : Undoes reader.check CheckEntry.toJson := by
  intro c
  have slots : reader.slots
      ["check_id", "title", "severity", "for_each", "logic", "conditions"] c.toJson =
      some [some (.string c.checkId), some (.string c.title), some (.string c.severity.name),
        some (.string c.forEach), some (.string c.logic.name),
        some (.array (c.conditions.map ConditionEntry.toJson))] :=
    slots_object rfl (by decide)
  have conditions := undoes_listOf undoes_condition c.conditions
  simp only [check, slots, required, defaulted, text_string, undoes_severity c.severity,
    undoes_logic c.logic, conditions, Option.bind_eq_bind, Option.bind_some]
  rfl

theorem undoes_document : Undoes reader.document Document.toJson := by
  intro d
  have slots : reader.slots
      ["provider", "service", "scope", "version", "discovery", "checks"] d.toJson =
      some [some (.string d.provider), some (.string d.service), some (.string d.coverage.name),
        some (ofOption d.version), some (.array (d.discovery.map DiscoveryEntry.toJson)),
        some (.array (d.checks.map CheckEntry.toJson))] :=
    slots_object rfl (by decide)
  have discovery := undoes_listOf undoes_discovery d.discovery
  have checks := undoes_listOf undoes_check d.checks
  simp only [document, slots, required, defaulted, text_string, undoes_coverage d.coverage,
    nullable_text, discovery, checks, Option.bind_eq_bind, Option.bind_some]
  rfl

end Json

namespace Document

/-- JSON read as a document and written again. -/
def rewritten? (v : Json) : Option Json := (ofJson? v).map toJson

/-- A document written as JSON reads back as it was, keys of free-form maps in their order, so
it compiles to the same catalog or fails alike. JSON that reads as a document keeps what it
says when it is written again, and a second time changes nothing. -/
theorem json_round_trip :
    (∀ d : Document, ofJson? d.toJson = some d ∧
      (ofJson? d.toJson).map compile = some d.compile) ∧
    ∀ v : Json, (rewritten? v).bind ofJson? = ofJson? v ∧
      (rewritten? v).bind rewritten? = rewritten? v := by
  have back : ∀ d : Document, ofJson? d.toJson = some d := Json.undoes_document
  refine ⟨fun d => ⟨back d, by rw [back d, Option.map_some]⟩, fun v => ?_⟩
  cases read : ofJson? v with
  | none => simp [rewritten?, read]
  | some d => simp [rewritten?, read, back d]

end Document

end CloudAudit
