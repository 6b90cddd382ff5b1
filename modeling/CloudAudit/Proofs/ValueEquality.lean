import CloudAudit.Evaluate
import Mathlib.Data.List.Nodup
import Mathlib.Data.List.Perm.Subperm
import Mathlib.Data.String.Basic
import Mathlib.Logic.Relation

set_option autoImplicit false

/- Equality of values as equality of normal forms. A normal form has its numbers as doubles and
the fields of each object in order of their keys. So where no object repeats a key, equality is
an equivalence, blind to the order of fields, and equal values may stand in for one another. -/
namespace CloudAudit

/-- The double with one zero for both. -/
def Binary64.unsignedZero (x : Binary64) : Binary64 := if x.rank = 0 then zero else x

theorem Binary64.eqv_iff {x y : Binary64} :
    x.eqv y = true ↔ x.unsignedZero = y.unsignedZero := by
  have keys : x.eqv y = true ↔ x.signedRank = y.signedRank := beq_iff_eq
  rw [keys]
  obtain ⟨xs, xr, xh⟩ := x
  obtain ⟨ys, yr, yh⟩ := y
  unfold unsignedZero signedRank
  by_cases first : xr = 0
  · by_cases second : yr = 0
    · simp [first, second]
    · have apart : ¬zero = ⟨ys, yr, yh⟩ := by
        intro same
        exact second (congrArg Binary64.rank same).symm
      simp only [first, second, ↓reduceIte, apart, iff_false]
      split <;> omega
  · by_cases second : yr = 0
    · have apart : ¬(⟨xs, xr, xh⟩ : Binary64) = zero := by
        intro same
        exact first (congrArg Binary64.rank same)
      simp only [first, second, ↓reduceIte, apart, iff_false]
      split <;> omega
    · simp only [first, second, ↓reduceIte, Binary64.mk.injEq]
      cases xs <;> cases ys <;> simp <;> omega

namespace Fields

/-- Where keys do not repeat, looking one up finds the field it stands in. -/
theorem get?_eq_some_iff {fields : Fields} (keys : (fields.map Prod.fst).Nodup) {key : String}
    {v : Json} : get? fields key = some v ↔ (key, v) ∈ fields := by
  induction fields with
  | nil => simp [get?]
  | cons field rest ih =>
    obtain ⟨k, w⟩ := field
    obtain ⟨fresh, keys⟩ := List.nodup_cons.mp keys
    unfold get?
    by_cases here : k = key
    · subst here
      have other : (k, v) ∉ rest := fun member => fresh (List.mem_map.mpr ⟨_, member, rfl⟩)
      simp [other, eq_comm]
    · simp [here, Ne.symm here, ih keys]

/-- Fields in ascending order of their keys. -/
def sorted (fields : Fields) : Fields := fields.mergeSort fun f g => decide (f.1 ≤ g.1)

theorem sorted_perm (fields : Fields) : (sorted fields).Perm fields := List.mergeSort_perm _ _

theorem sorted_ascending (fields : Fields) :
    (sorted fields).Pairwise fun f g => f.1 ≤ g.1 := by
  have pairs : (sorted fields).Pairwise fun f g => decide (f.1 ≤ g.1) = true := by
    apply List.pairwise_mergeSort
    · intro f g h first second
      rw [decide_eq_true_eq] at *
      exact le_trans first second
    · intro f g
      simpa using le_total f.1 g.1
  simpa only [decide_eq_true_eq] using pairs

/-- Fields with different keys are sorted alike just where they are the same up to order. -/
theorem sorted_eq_iff {fields others : Fields} (keys : (fields.map Prod.fst).Nodup) :
    sorted fields = sorted others ↔ fields.Perm others := by
  constructor
  · intro same
    exact (sorted_perm fields).symm.trans (same ▸ sorted_perm others)
  · intro perm
    have whole : (sorted fields).Perm (sorted others) :=
      (sorted_perm fields).trans (perm.trans (sorted_perm others).symm)
    refine whole.eq_of_pairwise ?_ (sorted_ascending fields) (sorted_ascending others)
    intro f g left right below above
    have first : f ∈ fields := (sorted_perm fields).mem_iff.mp left
    have second : g ∈ fields := perm.mem_iff.mpr ((sorted_perm others).mem_iff.mp right)
    exact List.inj_on_of_nodup_map keys first second (le_antisymm below above)

end Fields

namespace Json

/-- No object in the value has a key twice. -/
inductive Distinct : Json → Prop where
  | null : Distinct .null
  | bool (b : Bool) : Distinct (.bool b)
  | number (n : Number) : Distinct (.number n)
  | string (s : String) : Distinct (.string s)
  | array {items : List Json} (each : ∀ v ∈ items, Distinct v) : Distinct (.array items)
  | object {fields : Fields} (keys : (fields.map Prod.fst).Nodup)
    (each : ∀ f ∈ fields, Distinct f.2) : Distinct (.object fields)

@[simp]
theorem distinct_array {items : List Json} :
    (Json.array items).Distinct ↔ ∀ v ∈ items, v.Distinct :=
  ⟨fun | .array each => each, .array⟩

@[simp]
theorem distinct_object {fields : Fields} : (Json.object fields).Distinct ↔
    (fields.map Prod.fst).Nodup ∧ ∀ f ∈ fields, f.2.Distinct :=
  ⟨fun | .object keys each => ⟨keys, each⟩, fun ⟨keys, each⟩ => .object keys each⟩

mutual

/-- The value with its numbers as doubles, both zeros as one, and the fields of every object in
order of their keys. -/
def normal : Json → Json
  | .number n => .number (.double n.toBinary64.unsignedZero)
  | .array items => .array (normalItems items)
  | .object fields => .object (Fields.sorted (normalFields fields))
  | .null => .null
  | .bool b => .bool b
  | .string s => .string s

def normalItems : List Json → List Json
  | [] => []
  | v :: rest => v.normal :: normalItems rest

def normalFields : Fields → Fields
  | [] => []
  | (key, v) :: rest => (key, v.normal) :: normalFields rest

end

theorem normalItems_eq (items : List Json) : normalItems items = items.map normal := by
  induction items with
  | nil => rfl
  | cons v rest ih => rw [normalItems, ih, List.map_cons]

theorem normalFields_eq (fields : Fields) :
    normalFields fields = fields.map fun f => (f.1, f.2.normal) := by
  induction fields with
  | nil => rfl
  | cons f rest ih => rw [normalFields, ih, List.map_cons]

theorem normalFields_keys (fields : Fields) :
    (normalFields fields).map Prod.fst = fields.map Prod.fst := by
  rw [normalFields_eq, List.map_map]
  rfl

/-- Elements are equal one by one. -/
theorem alikeItems_iff {items : List Json}
    (each : ∀ v ∈ items, ∀ w : Json, w.Distinct → (v.alike w = true ↔ v.normal = w.normal)) :
    ∀ {others : List Json}, (∀ w ∈ others, w.Distinct) →
      (alikeItems items others = true ↔ items.map normal = others.map normal) := by
  induction items with
  | nil =>
    intro others _
    cases others <;> simp [alikeItems]
  | cons v rest ih =>
    intro others distinct
    cases others with
    | nil => simp [alikeItems]
    | cons w others =>
      obtain ⟨here, later⟩ := List.forall_mem_cons.mp each
      obtain ⟨own, distinct⟩ := List.forall_mem_cons.mp distinct
      simp only [alikeItems, Bool.and_eq_true, here w own, ih later distinct, List.map_cons,
        List.cons.injEq]

/-- Every field has an equal one under its key. -/
theorem alikeFields_iff {fields others : Fields}
    (each : ∀ f ∈ fields, ∀ w : Json, w.Distinct → (f.2.alike w = true ↔ f.2.normal = w.normal))
    (keys : (others.map Prod.fst).Nodup) (distinct : ∀ g ∈ others, g.2.Distinct) :
    alikeFields fields others = true ↔
      ∀ f ∈ fields, ∃ w, (f.1, w) ∈ others ∧ f.2.normal = w.normal := by
  induction fields with
  | nil => simp [alikeFields]
  | cons f rest ih =>
    obtain ⟨here, later⟩ := List.forall_mem_cons.mp each
    rw [List.forall_mem_cons, ← ih later, alikeFields, Bool.and_eq_true]
    refine and_congr_left fun _ => ?_
    simp only [← Fields.get?_eq_some_iff keys]
    cases looked : Fields.get? others f.1 with
    | none => simp
    | some w =>
      have own := distinct _ ((Fields.get?_eq_some_iff keys).mp looked)
      simp [here w own]

/-- As many fields, each with an equal one on the other side, are the same fields in some order:
different keys need different partners. -/
theorem normalFields_perm_iff {fields others : Fields} (keys : (fields.map Prod.fst).Nodup) :
    (normalFields fields).Perm (normalFields others) ↔ fields.length = others.length ∧
      ∀ f ∈ fields, ∃ w, (f.1, w) ∈ others ∧ f.2.normal = w.normal := by
  have partner : ∀ f : String × Json, (f.1, f.2.normal) ∈ normalFields others ↔
      ∃ w, (f.1, w) ∈ others ∧ f.2.normal = w.normal := by
    intro f
    rw [normalFields_eq, List.mem_map]
    constructor
    · rintro ⟨⟨key, w⟩, member, same⟩
      obtain ⟨rfl, same⟩ := Prod.mk.inj same
      exact ⟨w, member, same.symm⟩
    · rintro ⟨w, member, same⟩
      exact ⟨_, member, by rw [same]⟩
  have lengths : ∀ l : Fields, (normalFields l).length = l.length := by
    intro l
    rw [normalFields_eq, List.length_map]
  constructor
  · intro perm
    refine ⟨by rw [← lengths, perm.length_eq, lengths], fun f member => (partner f).mp ?_⟩
    apply perm.mem_iff.mp
    rw [normalFields_eq]
    exact List.mem_map_of_mem member
  · rintro ⟨size, each⟩
    have apart : (normalFields fields).Nodup := by
      apply List.Nodup.of_map Prod.fst
      rwa [normalFields_keys]
    have inside : normalFields fields ⊆ normalFields others := by
      intro g member
      rw [normalFields_eq] at member
      obtain ⟨f, first, rfl⟩ := List.mem_map.mp member
      exact (partner f).mpr (each f first)
    apply (List.subperm_of_subset apart inside).perm_of_length_le
    rw [lengths, lengths, size]

/-- Values are equal just where their normal forms are. -/
theorem alike_iff_normal {a : Json} (left : a.Distinct) :
    ∀ b : Json, b.Distinct → (a.alike b = true ↔ a.normal = b.normal) := by
  induction left with
  | null =>
    intro b _
    cases b <;> simp [alike, normal]
  | bool b =>
    intro c _
    cases c <;> simp [alike, normal]
  | string s =>
    intro b _
    cases b <;> simp [alike, normal]
  | number n =>
    intro b _
    cases b <;> simp [alike, normal, Binary64.eqv_iff]
  | array _ ih =>
    intro b right
    cases right with
    | array each =>
      simp only [alike, normal, normalItems_eq, Json.array.injEq]
      exact alikeItems_iff ih each
    | _ => simp [alike, normal]
  | @object fields keys _ ih =>
    intro b right
    cases right with
    | @object others keys' each =>
      have sorts : Fields.sorted (normalFields fields) = Fields.sorted (normalFields others) ↔
          (normalFields fields).Perm (normalFields others) := by
        apply Fields.sorted_eq_iff
        rwa [normalFields_keys]
      simp only [alike, normal, Json.object.injEq, sorts, normalFields_perm_iff keys,
        Bool.and_eq_true, decide_eq_true_eq, alikeFields_iff ih keys' each]
    | _ => simp [alike, normal]

/-! Values that differ in one place, or in the order of fields. -/

/-- Two values that differ in one place at most, where one has `x` and the other `y`. -/
inductive Within (x y : Json) : Json → Json → Prop where
  | here : Within x y x y
  | item {v w : Json} (inner : Within x y v w) (before after : List Json) :
    Within x y (.array (before ++ v :: after)) (.array (before ++ w :: after))
  | field {v w : Json} (inner : Within x y v w) (before after : Fields) (key : String) :
    Within x y (.object (before ++ (key, v) :: after)) (.object (before ++ (key, w) :: after))

/-- One object in the value has its fields in another order. -/
def Shuffled (v w : Json) : Prop :=
  ∃ fields others : Fields, fields.Perm others ∧ Within (.object fields) (.object others) v w

/-- Any number of objects in the value have their fields in another order. -/
def Reordered : Json → Json → Prop := Relation.ReflTransGen Shuffled

theorem Within.normal_eq {x y v w : Json} (place : Within x y v w) (same : x.normal = y.normal) :
    v.normal = w.normal := by
  induction place with
  | here => exact same
  | item _ before after ih => simp only [normal, normalItems_eq, List.map_append, List.map_cons, ih]
  | field _ before after key ih =>
    simp only [normal, normalFields_eq, List.map_append, List.map_cons, ih]

/-- What stands in a value without repeated keys has none itself, and such a value may stand in
its place. -/
theorem Within.distinct {x y v w : Json} (place : Within x y v w) (whole : v.Distinct) :
    x.Distinct ∧ (y.Distinct → w.Distinct) := by
  induction place with
  | here => exact ⟨whole, id⟩
  | item _ before after ih =>
    simp only [distinct_array, List.forall_mem_append, List.forall_mem_cons] at whole ⊢
    obtain ⟨front, own, back⟩ := whole
    obtain ⟨inner, replaced⟩ := ih own
    exact ⟨inner, fun other => ⟨front, replaced other, back⟩⟩
  | field _ before after key ih =>
    simp only [distinct_object, List.map_append, List.map_cons, List.forall_mem_append,
      List.forall_mem_cons] at whole ⊢
    obtain ⟨keys, front, own, back⟩ := whole
    obtain ⟨inner, replaced⟩ := ih own
    exact ⟨inner, fun other => ⟨keys, front, replaced other, back⟩⟩

theorem Distinct.perm {fields others : Fields} (distinct : Distinct (.object fields))
    (perm : fields.Perm others) : Distinct (.object others) := by
  cases distinct with
  | object keys each =>
    exact .object ((perm.map Prod.fst).nodup_iff.mp keys)
      fun f member => each f (perm.mem_iff.mpr member)

theorem Shuffled.normal_eq {v w : Json} (shuffled : Shuffled v w) (distinct : v.Distinct) :
    w.Distinct ∧ v.normal = w.normal := by
  obtain ⟨fields, others, perm, place⟩ := shuffled
  obtain ⟨inner, replaced⟩ := place.distinct distinct
  refine ⟨replaced (inner.perm perm), place.normal_eq ?_⟩
  cases inner with
  | object keys _ =>
    have sorts : Fields.sorted (normalFields fields) = Fields.sorted (normalFields others) := by
      rw [Fields.sorted_eq_iff (by rwa [normalFields_keys]), normalFields_eq, normalFields_eq]
      exact perm.map _
    simp only [normal, sorts]

theorem Reordered.normal_eq {v w : Json} (reordered : Reordered v w) (distinct : v.Distinct) :
    w.Distinct ∧ v.normal = w.normal := by
  induction reordered with
  | refl => exact ⟨distinct, rfl⟩
  | tail _ step ih =>
    obtain ⟨own, same⟩ := ih
    obtain ⟨next, shuffled⟩ := step.normal_eq own
    exact ⟨next, same.trans shuffled⟩

/-- Values of different kinds are never equal. -/
theorem kindName_of_alike {a b : Json} (same : a.alike b = true) : a.kindName = b.kindName := by
  cases a <;> cases b <;> first | rfl | simp [alike] at same

theorem alike_symm {a b : Json} (left : a.Distinct) (right : b.Distinct) :
    a.alike b = b.alike a := by
  rw [Bool.eq_iff_iff, alike_iff_normal left b right, alike_iff_normal right a left, eq_comm]

/-- Equality of values in which no object repeats a key. -/
structure EqualityLaws : Prop where
  refl : ∀ a : Json, a.Distinct → a.alike a = true
  symm : ∀ a b : Json, a.Distinct → b.Distinct → a.alike b = true → b.alike a = true
  trans : ∀ a b c : Json, a.Distinct → b.Distinct → c.Distinct →
    a.alike b = true → b.alike c = true → a.alike c = true
  /-- The order of fields does not matter, wherever the object stands. -/
  order : ∀ a b a' b' : Json, a.Distinct → b.Distinct → Reordered a a' → Reordered b b' →
    a'.alike b' = a.alike b
  kind : ∀ a b : Json, a.alike b = true → a.kindName = b.kindName
  /-- A value inside another one may be replaced by an equal one. -/
  congr : ∀ x y v w : Json, v.Distinct → y.Distinct → Within x y v w → x.alike y = true →
    v.alike w = true

theorem alike_equivalence : EqualityLaws where
  refl a left := (alike_iff_normal left a left).mpr rfl
  symm a b left right same := by rwa [alike_symm right left]
  trans a b c left middle right first second := by
    rw [alike_iff_normal left b middle] at first
    rw [alike_iff_normal middle c right] at second
    exact (alike_iff_normal left c right).mpr (first.trans second)
  order a b a' b' left right first second := by
    obtain ⟨left', same⟩ := first.normal_eq left
    obtain ⟨right', same'⟩ := second.normal_eq right
    rw [Bool.eq_iff_iff, alike_iff_normal left' b' right', alike_iff_normal left b right, same,
      same']
  kind a b := kindName_of_alike
  congr x y v w whole other place same := by
    obtain ⟨inner, replaced⟩ := place.distinct whole
    rw [alike_iff_normal inner y other] at same
    exact (alike_iff_normal whole w (replaced other)).mpr (place.normal_eq same)

/-- A rule with its ports as integers, and the same rule with its keys the other way round, a
port as a double and a zero with a sign. -/
theorem rule_equal_either_way :
    let rule : Json := .object
      [("name", .string "ssh"), ("ports", .array [.int 22, .int 0])]
    let other : Json := .object
      [("ports", .array [.number (.double (.ofInt 22)), .number (.double Binary64.zero.neg)]),
        ("name", .string "ssh")]
    EqualityLaws ∧ rule.Distinct ∧ other.Distinct ∧ rule.alike other = true ∧
      other.alike rule = true := by
  intro rule other
  have laws : EqualityLaws := alike_equivalence
  have first : rule.Distinct := by
    simp [rule, Json.int, Distinct.string, Distinct.number]
  have second : other.Distinct := by
    simp [other, Distinct.string, Distinct.number]
  have same : rule.alike other = true := by decide +kernel
  exact ⟨laws, first, second, same, laws.symm rule other first second same⟩

end Json

end CloudAudit
