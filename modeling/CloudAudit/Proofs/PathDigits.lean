import CloudAudit.Proofs.PathWays
import CloudAudit.Proofs.Success

set_option autoImplicit false

/- Steps written in digits. A list takes them as a position and a mapping as a key. Digits that
fit a position are read as a number, so the key is that number written out: zeros in front of
it are lost. -/
namespace CloudAudit

namespace Number

theorem isDigit_iff (c : Char) : isDigit c = true ↔ 48 ≤ c.toNat ∧ c.toNat ≤ 57 := by
  simp only [isDigit, Bool.and_eq_true, decide_eq_true_eq]
  exact Iff.rfl

theorem digit_lt {c : Char} (shown : isDigit c = true) : digit c < 10 := by
  obtain ⟨_, upper⟩ := (isDigit_iff c).mp shown
  change c.toNat - 48 < 10
  omega

/-- A digit is the character of its value. -/
theorem digitChar_digit {c : Char} (shown : isDigit c = true) : Nat.digitChar (digit c) = c := by
  obtain ⟨lower, _⟩ := (isDigit_iff c).mp shown
  apply Char.toNat_inj.mp
  rw [Nat.toNat_digitChar_of_lt_ten (digit_lt shown)]
  change 48 + (c.toNat - 48) = c.toNat
  omega

theorem toDigits_digit {c : Char} (shown : isDigit c = true) : Nat.toDigits 10 (digit c) = [c] := by
  rw [Nat.toDigits_of_lt_base (digit_lt shown), digitChar_digit shown]

/-- Digits read onto a number stand behind its digits. -/
theorem toDigits_read {ds : List Char} (digits : ds.all isDigit = true) :
    ∀ {n : Nat}, 0 < n →
      Nat.toDigits 10 (ds.foldl (fun n c => 10 * n + digit c) n) = Nat.toDigits 10 n ++ ds := by
  induction ds with
  | nil => intro n _; rw [List.foldl_nil, List.append_nil]
  | cons c ds ih =>
    intro n positive
    obtain ⟨shown, digits⟩ := Bool.and_eq_true_iff.mp (List.all_cons ▸ digits)
    have next := Nat.toDigits_append_toDigits (b := 10) (by decide) positive (digit_lt shown)
    rw [toDigits_digit shown] at next
    rw [List.foldl_cons, ih digits (by omega), ← next, List.append_assoc, List.singleton_append]

/-- Digits without the zeros in front; zero keeps one. -/
def significant (ds : List Char) : List Char :=
  match ds.dropWhile (· = '0') with
  | [] => ['0']
  | shown => shown

theorem significant_eq_iff {ds : List Char} (filled : ds ≠ []) :
    significant ds = ds ↔ ¬(ds.head? = some '0' ∧ ds ≠ ['0']) := by
  cases ds with
  | nil => exact absurd rfl filled
  | cons c rest =>
    by_cases zero : c = '0'
    · subst zero
      have shorter : (rest.dropWhile (· = '0')).length ≤ rest.length :=
        (List.dropWhile_suffix _).length_le
      have dropped : ('0' :: rest).dropWhile (· = '0') = rest.dropWhile (· = '0') := rfl
      rw [significant, dropped]
      split
      · simp [eq_comm]
      · next shown =>
        constructor
        · intro same
          have lengths := congrArg List.length same
          rw [List.length_cons] at lengths
          omega
        · intro only
          simp_all
    · simp [significant, zero]

/-- A number that is read from digits is written with the significant ones. -/
theorem toDigits_ofDigits {ds : List Char} (digits : ds.all isDigit = true) :
    Nat.toDigits 10 (ofDigits ds) = significant ds := by
  induction ds with
  | nil => rfl
  | cons c ds ih =>
    obtain ⟨shown, digits⟩ := Bool.and_eq_true_iff.mp (List.all_cons ▸ digits)
    by_cases zero : c = '0'
    · subst zero
      exact ih digits
    · have kept : significant (c :: ds) = c :: ds := by simp [significant, zero]
      have positive : 0 < digit c := by
        have other : c.toNat ≠ 48 := fun same => zero (Char.toNat_inj.mp same)
        obtain ⟨lower, _⟩ := (isDigit_iff c).mp shown
        change 0 < c.toNat - 48
        omega
      rw [ofDigits, List.foldl_cons, Nat.mul_zero, Nat.zero_add, toDigits_read digits positive,
        toDigits_digit shown, kept]
      rfl

end Number

namespace Path

/-- The key that a step in digits stands for. -/
def spelled (ds : List Char) : String :=
  String.ofList (if Number.ofDigits ds ≤ maxIndex then Number.significant ds else ds)

/-- Digits are written as they are, unless they fit a position and start with a needless zero. -/
theorem spelled_eq_iff {ds : List Char} (filled : ds ≠ []) :
    spelled ds = String.ofList ds ↔
      ¬(Number.ofDigits ds ≤ maxIndex ∧ ds.head? = some '0' ∧ ds ≠ ['0']) := by
  rw [spelled, String.ofList_inj]
  split
  · next fits => rw [Number.significant_eq_iff filled, and_iff_right fits]
  · next large => simp [large]

theorem nameStep_digits {ds : List Char} (filled : ds ≠ [])
    (digits : ds.all Number.isDigit = true) :
    nameStep ds = if Number.ofDigits ds ≤ maxIndex then .index (Number.ofDigits ds)
      else .key (String.ofList ds) := by
  rw [nameStep, Number.natural?, if_pos ⟨filled, digits⟩]

theorem isNameChar_digit {c : Char} (shown : Number.isDigit c = true) : isNameChar c = true := by
  obtain ⟨lower, upper⟩ := (Number.isDigit_iff c).mp shown
  have plain : Text.isBlank c = false := by
    simp only [Text.isBlank, Bool.or_eq_false_iff, Bool.and_eq_false_iff, decide_eq_false_iff_not,
      beq_eq_false_iff_ne]
    omega
  have opening : c ≠ '[' := by
    rintro rfl
    exact absurd upper (by decide)
  have closing : c ≠ ']' := by
    rintro rfl
    exact absurd upper (by decide)
  simp [isNameChar, plain, opening, closing]

/-- A segment in digits is one step, and a `[]` after it another. -/
theorem segmentSteps_digits {ds : List Char} (filled : ds ≠ [])
    (digits : ds.all Number.isDigit = true) :
    segmentSteps ds = .ok [nameStep ds] ∧
      segmentSteps (ds ++ ['[', ']']) = .ok [nameStep ds, .flatten] := by
  have name : ds.all isNameChar = true := by
    rw [List.all_eq_true] at digits ⊢
    exact fun c member => isNameChar_digit (digits c member)
  have bare : Text.beforeSuffix? ['[', ']'] ds = none := by
    rw [Option.eq_none_iff_forall_ne_some]
    intro rest same
    rw [Text.beforeSuffix?_eq_some_iff] at same
    have bracket := List.all_eq_true.mp digits '[' (by simp [same])
    exact absurd bracket (by decide)
  have marked : Text.beforeSuffix? ['[', ']'] (ds ++ ['[', ']']) = some ds :=
    Text.beforeSuffix?_eq_some_iff.mpr rfl
  simp [segmentSteps, bare, marked, filled, name]

theorem stepsOf_append {before after : List (List Char)} {steps : List Step}
    (read : stepsOf (before ++ after) = .ok steps) :
    ∃ front back, stepsOf before = .ok front ∧ stepsOf after = .ok back ∧
      steps = front ++ back := by
  induction before generalizing steps with
  | nil => exact ⟨[], steps, rfl, read, rfl⟩
  | cons segment rest ih =>
    rw [List.cons_append, stepsOf] at read
    obtain ⟨first, here, read⟩ := bind_eq_ok.mp read
    obtain ⟨more, later, read⟩ := bind_eq_ok.mp read
    obtain ⟨front, back, known, following, rfl⟩ := ih later
    obtain rfl := Except.ok.inj read
    refine ⟨first ++ front, back, ?_, following, (List.append_assoc ..).symm⟩
    rw [stepsOf, here, known]
    rfl

end Path

namespace Binding

/-- A binding whose parts have keys. -/
def IsMapping : Binding → Prop
  | .value (.object _) => True
  | .item _ => True
  | .discoveries _ => True
  | _ => False

theorem index?_of_isMapping {m : Binding} (mapping : m.IsMapping) (n : Nat) :
    m.index? n = m.key? (toString n) := by
  cases m with
  | value v =>
    cases v with
    | object fields => rfl
    | null | bool | number | string | array => exact mapping.elim
  | item fields => rfl
  | items is => exact mapping.elim
  | discoveries c => rfl

/-- In a mapping a step in digits looks up the key that the digits are spelled as. -/
theorem step?_digits {m : Binding} (mapping : m.IsMapping) {ds : List Char} (filled : ds ≠ [])
    (digits : ds.all Number.isDigit = true) :
    m.step? (Path.nameStep ds) = m.key? (Path.spelled ds) := by
  rw [Path.nameStep_digits filled digits, Path.spelled]
  split
  · rw [step?, index?_of_isMapping mapping, Nat.toString_eq_ofList_toDigits,
      Number.toDigits_ofDigits digits]
  · rfl

theorem walk_digits {m : Binding} (mapping : m.IsMapping) {ds : List Char} (filled : ds ≠ [])
    (digits : ds.all Number.isDigit = true) (back : List Step) :
    m.walk (Path.nameStep ds :: back) =
      (m.key? (Path.spelled ds)).bind fun next => next.walk back := by
  have single : Path.nameStep ds ≠ .flatten := by
    rw [Path.nameStep_digits filled digits]
    split <;> exact Step.noConfusion
  rw [walk_cons single, step?_digits mapping filled digits]

theorem flatten_not_mem_of_follow {front : List Step} : ∀ {b m : Binding},
    b.follow? front = some m → .flatten ∉ front := by
  induction front with
  | nil => exact fun _ => List.not_mem_nil
  | cons step front ih =>
    intro b m led
    obtain ⟨next, first, led⟩ := Option.bind_eq_some_iff.mp led
    refine fun member => (List.mem_cons.mp member).elim (fun same => ?_) (ih led)
    rw [← same] at first
    cases first

end Binding

namespace Path

/-- A step in digits, with the steps before and after it. -/
structure DigitStep (p : Path) (ds : List Char) (front back : List Step) : Prop where
  steps : p.steps = front ++ nameStep ds :: back
  /-- Every mapping that is reached is asked for the key the digits are spelled as. -/
  mapping : ∀ m : Binding, m.IsMapping → m.walk (nameStep ds :: back) =
    (m.key? (spelled ds)).bind fun next => next.walk back
  /-- So a path into an item goes on from that key or leads nowhere. -/
  item : ∀ (i : Item) (m : Binding), (Binding.item i).follow? front = some m → m.IsMapping →
    i.resolve? p = (m.key? (spelled ds)).bind fun next => next.walk back
  /-- So a path in a scope goes on from that key or is not found. -/
  scope : ∀ (s : Scope) (root : String) (inner : List Step) (b m : Binding),
    front = .key root :: inner → s.lookup root = some b → b.follow? inner = some m → m.IsMapping →
      s.resolvePath p = ((m.key? (spelled ds)).bind fun next => next.walk back).elim
        (.error ⟨p.text⟩) .ok
  /-- The key is the digits as written but for needless zeros of a number that fits a position. -/
  exact_iff : spelled ds = String.ofList ds ↔
    ¬(Number.ofDigits ds ≤ maxIndex ∧ ds.head? = some '0' ∧ ds ≠ ['0'])

/-- Digits in a path, alone in a segment or with a `[]` behind them, name a key of every mapping
that they are reached in: the digits without needless zeros, or all of them if they do not fit
a position. -/
theorem digits_look_up_keys {text : String} {p : Path} (read : parse text = .ok p)
    {before after : List (List Char)} {written ds : List Char}
    (split : segments (Text.trim text.toList) = before ++ written :: after)
    (shape : written = ds ∨ written = ds ++ ['[', ']']) (filled : ds ≠ [])
    (digits : ds.all Number.isDigit = true) :
    ∃ front more, stepsOf before = .ok front ∧ stepsOf after = .ok more ∧
      DigitStep p ds front (if written = ds then more else .flatten :: more) := by
  obtain ⟨_, _, read⟩ := parse_eq_ok.mp read
  rw [split] at read
  obtain ⟨front, rest, known, later, steps⟩ := stepsOf_append read
  rw [stepsOf] at later
  obtain ⟨own, here, later⟩ := bind_eq_ok.mp later
  obtain ⟨more, following, later⟩ := bind_eq_ok.mp later
  obtain rfl := Except.ok.inj later
  generalize tail : (if written = ds then more else .flatten :: more) = back
  have named : own ++ more = nameStep ds :: back := by
    obtain ⟨bare, marked⟩ := segmentSteps_digits filled digits
    rcases shape with rfl | rfl
    · rw [bare] at here
      obtain rfl := Except.ok.inj here
      rw [← tail, if_pos rfl]
      rfl
    · rw [marked] at here
      obtain rfl := Except.ok.inj here
      rw [← tail, if_neg (by simp)]
      rfl
  rw [named] at steps
  have walks : ∀ {b m : Binding} {inner : List Step}, b.follow? inner = some m → m.IsMapping →
      b.walk (inner ++ nameStep ds :: back) =
        (m.key? (spelled ds)).bind fun next => next.walk back := by
    intro b m inner led mapping
    rw [Binding.walk_append_of_follow (Binding.flatten_not_mem_of_follow led), led,
      Option.bind_some, Binding.walk_digits mapping filled digits]
  refine ⟨front, more, known, following, tail ▸ ⟨steps,
    fun m mapping => Binding.walk_digits mapping filled digits back, fun i m led mapping => ?_,
    fun s root inner b m starts bound led mapping => ?_, spelled_eq_iff filled⟩⟩
  · rw [Item.resolve?, steps, walks led mapping]
  · subst starts
    simp only [Scope.resolvePath, steps, List.cons_append, bound, Option.bind_some,
      walks led mapping]
    cases (m.key? (spelled ds)).bind fun next => next.walk back <;> rfl

/-- A host with a port that has two rules, and two accounts whose numbers differ in the zeros in
front. -/
def sampleHost : Item :=
  [("ports", .object [("22", .array [.object [("rule", .string "deny")], .object []])]),
    ("accounts", .object [("0042", .string "audit"), ("42", .string "billing")])]

def portRules : Path := ⟨"ports.22[].rule", [.key "ports", .index 22, .flatten, .key "rule"]⟩

/-- The rules of a port: the port is a key, and the rule that has no name is left out. -/
theorem port_looked_up :
    parse " ports.22[].rule " = .ok portRules ∧
    (∃ front more, stepsOf [['p', 'o', 'r', 't', 's']] = .ok front ∧
      stepsOf [['r', 'u', 'l', 'e']] = .ok more ∧
      DigitStep portRules ['2', '2'] front (.flatten :: more)) ∧
    sampleHost.resolve? portRules = some (.array [.string "deny"]) := by
  have read : parse " ports.22[].rule " = .ok portRules := by decide +kernel
  have split : segments (Text.trim " ports.22[].rule ".toList) =
      [['p', 'o', 'r', 't', 's']] ++ ['2', '2', '[', ']'] :: [['r', 'u', 'l', 'e']] := by
    decide +kernel
  have shape : ['2', '2', '[', ']'] = ['2', '2'] ∨ ['2', '2', '[', ']'] = ['2', '2'] ++ ['[', ']'] :=
    .inr rfl
  exact ⟨read, digits_look_up_keys read split shape (by decide) (by decide), rfl⟩

/-- An account number in a path may lead to another account. -/
theorem account_loses_zeros : ∃ accounts p,
    sampleHost.resolve? ⟨"accounts", [.key "accounts"]⟩ = some (.object accounts) ∧
    parse "accounts.0042" = .ok p ∧ Fields.get? accounts "0042" = some (.string "audit") ∧
    sampleHost.resolve? p = some (.string "billing") :=
  ⟨[("0042", .string "audit"), ("42", .string "billing")],
    ⟨"accounts.0042", [.key "accounts", .index 42]⟩, rfl, by decide +kernel, rfl, rfl⟩

end Path

end CloudAudit
