import CloudAudit.Proofs.ValueEquality

set_option autoImplicit false

/- How the operators answer for one another on the same values: which are complements, which
are the same question put the other way round, and where all of a family warn at once. -/
namespace CloudAudit

theorem Binary64.lt_eq_not_le (x y : Binary64) : x.lt y = !y.le x := by
  rw [Bool.eq_iff_iff]
  simp only [lt, le, Bool.not_eq_true', decide_eq_true_eq, decide_eq_false_iff_not]
  omega

theorem Binary64.eqv_eq_le_and_le (x y : Binary64) : x.eqv y = (y.le x && x.le y) := by
  rw [Bool.eq_iff_iff]
  simp only [eqv, le, Bool.and_eq_true, beq_iff_eq, decide_eq_true_eq]
  omega

/-- A number, or a text that is one but for blanks around it. -/
inductive Json.ReadsAsNumber : Json → Prop where
  | number (n : Number) : ReadsAsNumber (.number n)
  | text {s : String} {x : Binary64} (read : Number.finite? (Text.trim s.toList) = some x) :
    ReadsAsNumber (.string s)

theorem Json.readsAsNumber_iff {v : Json} : v.ReadsAsNumber ↔ ∃ x, v.toBinary64? = some x := by
  constructor
  · rintro (n | read)
    · exact ⟨n.toBinary64, rfl⟩
    · exact ⟨_, read⟩
  · rintro ⟨x, read⟩
    cases v with
    | number n => exact .number n
    | string s => exact .text read
    | _ => cases read

namespace Verdict

/-- Answers without a warning, of which just one is a pass. -/
def Opposed (v w : Verdict) : Prop := v.warning = none ∧ w.warning = none ∧ v.passed = !w.passed

/-- A warning, and no pass. -/
def Refused (v : Verdict) : Prop := v.warning.isSome ∧ v.passed = false

end Verdict

namespace Operator

/-- The operators that put two numbers in order. -/
def orderings : List Operator := [gt, gte, lt, lte]

theorem evaluate_ordering {op : Operator} (listed : op ∈ orderings) (a e : Json) :
    op.evaluate (some a) e = op.compareNumbers a e := by
  simp only [orderings, List.mem_cons, List.not_mem_nil, or_false] at listed
  rcases listed with rfl | rfl | rfl | rfl <;> rfl

theorem compareNumbers_read (op : Operator) {a e : Json} {x y : Binary64}
    (left : a.toBinary64? = some x) (right : e.toBinary64? = some y) :
    op.compareNumbers a e = ⟨op.ordered x y, none⟩ := by
  simp only [compareNumbers, left, right]

theorem compareNumbers_refused (op : Operator) {a e : Json}
    (unread : ¬(a.ReadsAsNumber ∧ e.ReadsAsNumber)) : (op.compareNumbers a e).Refused := by
  rw [Json.readsAsNumber_iff, Json.readsAsNumber_iff] at unread
  unfold compareNumbers
  split
  · rename_i x y left right
    exact absurd ⟨⟨x, left⟩, y, right⟩ unread
  · exact ⟨rfl, rfl⟩

/-- Values that can be searched: a text for a text, and a list for anything. -/
inductive Searchable : Json → Json → Prop where
  | text (s needle : String) : Searchable (.string s) (.string needle)
  | list (items : List Json) (e : Json) : Searchable (.array items) e

theorem contains_opposed {a e : Json} (searchable : Searchable a e) :
    (contains.evaluate (some a) e).Opposed (notContains.evaluate (some a) e) := by
  have search : ∃ found, containsValue a e = .ok found := by
    cases searchable with
    | text s needle => exact ⟨_, rfl⟩
    | list items => exact ⟨_, rfl⟩
  obtain ⟨found, search⟩ := search
  simp only [evaluate, evaluatePresent, search, Verdict.Opposed, Bool.not_not, and_self]

theorem contains_refused {a e : Json} (other : ¬Searchable a e) :
    (contains.evaluate (some a) e).Refused ∧ (notContains.evaluate (some a) e).Refused := by
  have search : ∃ w, containsValue a e = .error w := by
    cases a with
    | string s =>
      cases e with
      | string needle => exact absurd (.text s needle) other
      | _ => exact ⟨_, rfl⟩
    | array items => exact absurd (.list items e) other
    | _ => exact ⟨_, rfl⟩
  obtain ⟨w, search⟩ := search
  simp only [evaluate, evaluatePresent, search, Verdict.Refused, Option.isSome_some, and_self]

/-- An operator that warns does not pass the value. -/
theorem evaluate_silent_or_refused (op : Operator) (a e : Json) :
    (op.evaluate (some a) e).warning = none ∨ (op.evaluate (some a) e).Refused := by
  cases op with
  | exist | equals | notEquals => exact .inl rfl
  | gt | gte | lt | lte =>
    rw [evaluate_ordering (by decide)]
    unfold compareNumbers
    split
    · exact .inl rfl
    · exact .inr ⟨rfl, rfl⟩
  | contains =>
    by_cases searchable : Searchable a e
    · exact .inl (contains_opposed searchable).1
    · exact .inr (contains_refused searchable).1
  | notContains =>
    by_cases searchable : Searchable a e
    · exact .inl (contains_opposed searchable).2.1
    · exact .inr (contains_refused searchable).2
  | isIn =>
    cases e with
    | array items => exact .inl rfl
    | _ => exact .inr ⟨rfl, rfl⟩

/-- What the operators say of the same values, for all values. -/
structure VerdictLaws : Prop where
  /-- A value that is missing passes nothing, without a warning. -/
  missing : ∀ (op : Operator) (e : Json), op.evaluate none e = ⟨false, none⟩
  /-- There is no pass with a warning. -/
  warned : ∀ (op : Operator) (a : Option Json) (e : Json),
    (op.evaluate a e).warning ≠ none → (op.evaluate a e).passed = false
  equality : ∀ a e : Json, (equals.evaluate (some a) e).Opposed (notEquals.evaluate (some a) e)
  containment : ∀ a e : Json, Searchable a e →
    (contains.evaluate (some a) e).Opposed (notContains.evaluate (some a) e)
  /-- Values that cannot be searched neither contain nor lack anything. -/
  unsearchable : ∀ a e : Json, ¬Searchable a e →
    (contains.evaluate (some a) e).Refused ∧ (notContains.evaluate (some a) e).Refused
  order : ∀ a e : Json, a.ReadsAsNumber → e.ReadsAsNumber →
    (gt.evaluate (some a) e).Opposed (lte.evaluate (some a) e) ∧
    (lt.evaluate (some a) e).Opposed (gte.evaluate (some a) e) ∧
    gt.evaluate (some a) e = lt.evaluate (some e) a
  /-- Values that are not both numbers are in no order at all. -/
  unordered : ∀ a e : Json, ¬(a.ReadsAsNumber ∧ e.ReadsAsNumber) →
    ∀ op ∈ orderings, (op.evaluate (some a) e).Refused
  antisymm : ∀ m n : Number, (equals.evaluate (some (.number m)) (.number n)).passed =
    ((gte.evaluate (some (.number m)) (.number n)).passed &&
      (lte.evaluate (some (.number m)) (.number n)).passed)
  /-- A list is searched alike from its own side and from the value's. -/
  search : ∀ (items : List Json) (v : Json), (Json.array items).Distinct → v.Distinct →
    contains.evaluate (some (.array items)) v = isIn.evaluate (some v) (.array items)

theorem verdicts_lawful : VerdictLaws where
  missing _ _ := rfl
  warned op a e raised := by
    cases a with
    | none => rfl
    | some a => exact (evaluate_silent_or_refused op a e).elim (absurd · raised) And.right
  equality a e := ⟨rfl, rfl, (Bool.not_not _).symm⟩
  containment a e := contains_opposed
  unsearchable a e := contains_refused
  order a e left right := by
    obtain ⟨x, left⟩ := Json.readsAsNumber_iff.mp left
    obtain ⟨y, right⟩ := Json.readsAsNumber_iff.mp right
    have answer : ∀ op ∈ orderings, op.evaluate (some a) e = ⟨op.ordered x y, none⟩ := by
      intro op listed
      rw [evaluate_ordering listed, compareNumbers_read op left right]
    have turned : lt.evaluate (some e) a = ⟨lt.ordered y x, none⟩ := by
      rw [evaluate_ordering (by decide), compareNumbers_read lt right left]
    rw [answer gt (by decide), answer lte (by decide), answer lt (by decide),
      answer gte (by decide), turned]
    exact ⟨⟨rfl, rfl, Binary64.lt_eq_not_le y x⟩, ⟨rfl, rfl, Binary64.lt_eq_not_le x y⟩, rfl⟩
  unordered a e unread op listed := by
    rw [evaluate_ordering listed]
    exact compareNumbers_refused op unread
  antisymm m n := Binary64.eqv_eq_le_and_le m.toBinary64 n.toBinary64
  search items v whole distinct := by
    have each := Json.distinct_array.mp whole
    have found : (items.any fun e => e.alike v) = items.any fun c => v.alike c := by
      rw [Bool.eq_iff_iff, List.any_eq_true, List.any_eq_true]
      refine exists_congr fun e => and_congr_right fun member => ?_
      rw [Json.alike_symm (each e member) distinct]
    simp only [evaluate, evaluatePresent, containsValue, found]

/-- A port in a text with blanks around it is above 1024 both ways round, and in no order with a
list; an object is found in a list whatever the order of its keys. -/
theorem port_and_rule_verdicts :
    let port : Json := .string " 8080 "
    let rule : Json := .object [("name", .string "ssh"), ("port", .int 22)]
    let turned : Json := .object [("port", .int 22), ("name", .string "ssh")]
    VerdictLaws ∧ gt.evaluate (some port) (.int 1024) = ⟨true, none⟩ ∧
      lt.evaluate (some (.int 1024)) port = ⟨true, none⟩ ∧
      (gte.evaluate (some port) (.array [])).Refused ∧
      contains.evaluate (some (.array [rule])) turned = ⟨true, none⟩ ∧
      isIn.evaluate (some turned) (.array [rule]) = ⟨true, none⟩ := by
  intro port rule turned
  have laws : VerdictLaws := verdicts_lawful
  have read : port.ReadsAsNumber := Json.readsAsNumber_iff.mpr ⟨.ofInt 8080, by decide +kernel⟩
  have above : gt.evaluate (some port) (.int 1024) = ⟨true, none⟩ := by decide +kernel
  have below := (laws.order port (.int 1024) read (.number _)).2.2
  have unread : ¬(port.ReadsAsNumber ∧ (Json.array []).ReadsAsNumber) := by
    rintro ⟨-, ⟨⟩⟩
  have found : contains.evaluate (some (.array [rule])) turned = ⟨true, none⟩ := by decide +kernel
  have listed := laws.search [rule] turned
    (by simp [rule, Json.int, Json.Distinct.string, Json.Distinct.number])
    (by simp [turned, Json.int, Json.Distinct.string, Json.Distinct.number])
  exact ⟨laws, above, below ▸ above, laws.unordered port (.array []) unread gte (by decide), found,
    listed ▸ found⟩

end Operator

end CloudAudit
