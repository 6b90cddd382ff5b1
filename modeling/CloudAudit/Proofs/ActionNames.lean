import CloudAudit.Action
import CloudAudit.Proofs.TextTrim

set_option autoImplicit false

/- Names of actions. An action has one name, and it is what that name is read as, with any blanks
around it. The forms overlap behind `get_`: a final `_iam_policy` never belongs to the resource
there, so the resource of a `get` is a word that does not end in it. -/
namespace CloudAudit.Action

/-- A character of a resource word. -/
def IsWordChar (c : Char) : Prop :=
  ('A' ≤ c ∧ c ≤ 'Z') ∨ ('a' ≤ c ∧ c ≤ 'z') ∨ ('0' ≤ c ∧ c ≤ '9') ∨ c = '_'

/-- A word that names a resource. -/
structure IsWord (word : String) : Prop where
  filled : word ≠ ""
  chars : ∀ c ∈ word.toList, IsWordChar c
  first : word.toList.head? ≠ some '_'
  last : word.toList.getLast? ≠ some '_'

/-- A text with the mark of a policy at its end. -/
def EndsInPolicy (text : String) : Prop := ∃ front, text = front ++ "_iam_policy"

/-- Texts that name an action. -/
inductive IsName : String → Prop
  | eval : IsName "eval"
  | list {r : String} (word : IsWord r) : IsName ("list_" ++ r)
  | aggregatedList {r : String} (word : IsWord r) : IsName ("aggregatedList_" ++ r)
  | iamPolicy {r : String} (word : IsWord r) : IsName ("get_" ++ r ++ "_iam_policy")
  | get {r : String} (word : IsWord r) (plain : ¬EndsInPolicy r) : IsName ("get_" ++ r)

/-- Actions that a name stands for. -/
def HasName : Action → Prop
  | list r | aggregatedList r | iamPolicy r => IsWord r
  | get r => IsWord r ∧ ¬EndsInPolicy r
  | eval => True

/-! Words. -/

theorem isWordChar_iff (c : Char) : (c.isAlphanum || c = '_') = true ↔ IsWordChar c := by
  have ranges : c.isAlphanum = (decide ('A' ≤ c ∧ c ≤ 'Z') ||
      (decide ('a' ≤ c) && decide (c ≤ 'z')) || (decide ('0' ≤ c) && decide (c ≤ '9'))) := rfl
  simp only [ranges, IsWordChar, Bool.or_eq_true, Bool.and_eq_true, decide_eq_true_eq, or_assoc]

theorem IsWordChar.shown {c : Char} (char : IsWordChar c) : Text.isBlank c = false := by
  have bounds : 48 ≤ c.toNat ∧ c.toNat ≤ 122 := by
    rcases char with ⟨lower, upper⟩ | ⟨lower, upper⟩ | ⟨lower, upper⟩ | rfl
    · exact ⟨Nat.le_trans (by decide : 48 ≤ 65) lower, Nat.le_trans upper (by decide : 90 ≤ 122)⟩
    · exact ⟨Nat.le_trans (by decide : 48 ≤ 97) lower, upper⟩
    · exact ⟨lower, Nat.le_trans upper (by decide : 57 ≤ 122)⟩
    · decide
  simp only [Text.isBlank, Bool.or_eq_false_iff, Bool.and_eq_false_iff, decide_eq_false_iff_not,
    beq_eq_false_iff_ne]
  omega

theorem isResourceWord_iff {cs : List Char} :
    isResourceWord cs = true ↔ IsWord (String.ofList cs) := by
  simp only [isResourceWord, Bool.and_eq_true, decide_eq_true_eq, List.all_eq_true, isWordChar_iff]
  constructor
  · rintro ⟨⟨⟨filled, first⟩, last⟩, chars⟩
    exact ⟨by simpa using filled, by simpa using chars, by simpa using first, by simpa using last⟩
  · rintro ⟨filled, chars, first, last⟩
    rw [String.toList_ofList] at chars first last
    exact ⟨⟨⟨by simpa using filled, first⟩, last⟩, chars⟩

theorem withResource_eq_ok {action cs : List Char} {make : String → Action} {a : Action} :
    withResource action cs make = .ok a ↔
      IsWord (String.ofList cs) ∧ a = make (String.ofList cs) := by
  rw [withResource, ← isResourceWord_iff]
  by_cases word : isResourceWord cs = true
  · simp [word, eq_comm]
  · simp [word]

theorem withResource_word {action : List Char} {r : String} {make : String → Action}
    (word : IsWord r) : withResource action r.toList make = .ok (make r) := by
  rw [withResource_eq_ok, String.ofList_toList]
  exact ⟨word, rfl⟩

/-! Reading, by the form of the name. -/

theorem parseTrimmed_list (cs : List Char) :
    parseTrimmed (listMark ++ cs) = withResource (listMark ++ cs) cs list := rfl

theorem parseTrimmed_aggregatedList (cs : List Char) :
    parseTrimmed (aggregatedMark ++ cs) = withResource (aggregatedMark ++ cs) cs aggregatedList :=
  rfl

theorem parseTrimmed_get (cs : List Char) :
    parseTrimmed (getMark ++ cs) = match Text.beforeSuffix? policyMark cs with
      | some resource => withResource (getMark ++ cs) resource iamPolicy
      | none => withResource (getMark ++ cs) cs get := rfl

theorem parseTrimmed_iamPolicy (cs : List Char) :
    parseTrimmed (getMark ++ (cs ++ policyMark)) =
      withResource (getMark ++ (cs ++ policyMark)) cs iamPolicy := by
  have ended : Text.beforeSuffix? policyMark (cs ++ policyMark) = some cs :=
    Text.beforeSuffix?_eq_some_iff.mpr rfl
  rw [parseTrimmed_get, ended]

theorem endsInPolicy_iff {cs : List Char} :
    EndsInPolicy (String.ofList cs) ↔ ∃ front, cs = front ++ policyMark := by
  constructor
  · rintro ⟨front, same⟩
    have chars := congrArg String.toList same
    rw [String.toList_ofList, String.toList_append] at chars
    exact ⟨front.toList, chars⟩
  · rintro ⟨front, rfl⟩
    exact ⟨String.ofList front, String.ofList_append⟩

theorem parseTrimmed_plain {cs : List Char} (plain : ¬EndsInPolicy (String.ofList cs)) :
    parseTrimmed (getMark ++ cs) = withResource (getMark ++ cs) cs get := by
  have unended : Text.beforeSuffix? policyMark cs = none := by
    rw [Option.eq_none_iff_forall_ne_some]
    intro front same
    exact plain (endsInPolicy_iff.mpr ⟨front, Text.beforeSuffix?_eq_some_iff.mp same⟩)
  rw [parseTrimmed_get, unended]

/-- Characters of the name of an action. -/
def chars : Action → List Char
  | list r => listMark ++ r.toList
  | aggregatedList r => aggregatedMark ++ r.toList
  | get r => getMark ++ r.toList
  | iamPolicy r => getMark ++ (r.toList ++ policyMark)
  | eval => "eval".toList

theorem toList_render (a : Action) : a.render.toList = a.chars := by
  cases a with
  | list r | aggregatedList r | get r => exact String.toList_append
  | iamPolicy r => rw [render, String.toList_append, String.toList_append, List.append_assoc]; rfl
  | eval => rfl

/-- Text that is read as an action has one of four forms. -/
theorem form_of_parseTrimmed {cs : List Char} {a : Action} (read : parseTrimmed cs = .ok a) :
    cs = "eval".toList ∨ (∃ rest, cs = aggregatedMark ++ rest) ∨ (∃ rest, cs = listMark ++ rest) ∨
      ∃ rest, cs = getMark ++ rest := by
  by_cases same : cs = "eval".toList
  · exact .inl same
  · rw [parseTrimmed, if_neg same] at read
    cases aggregated : Text.afterPrefix? aggregatedMark cs with
    | some rest => exact .inr (.inl ⟨rest, Text.afterPrefix?_eq_some_iff.mp aggregated⟩)
    | none =>
      cases listed : Text.afterPrefix? listMark cs with
      | some rest => exact .inr (.inr (.inl ⟨rest, Text.afterPrefix?_eq_some_iff.mp listed⟩))
      | none =>
        cases got : Text.afterPrefix? getMark cs with
        | some rest => exact .inr (.inr (.inr ⟨rest, Text.afterPrefix?_eq_some_iff.mp got⟩))
        | none =>
          simp only [aggregated, listed, got] at read
          cases read

theorem parseTrimmed_chars {a : Action} (named : a.HasName) : parseTrimmed a.chars = .ok a := by
  cases a with
  | eval => rfl
  | list r => exact (parseTrimmed_list r.toList).trans (withResource_word named)
  | aggregatedList r => exact (parseTrimmed_aggregatedList r.toList).trans (withResource_word named)
  | iamPolicy r => exact (parseTrimmed_iamPolicy r.toList).trans (withResource_word named)
  | get r =>
    obtain ⟨word, plain⟩ := named
    rw [← @String.ofList_toList r] at plain
    exact (parseTrimmed_plain plain).trans (withResource_word word)

/-- A name that is read is the one that the action is written with. -/
theorem parseTrimmed_eq_ok {cs : List Char} {a : Action} :
    parseTrimmed cs = .ok a ↔ a.HasName ∧ cs = a.chars := by
  constructor
  · intro read
    rcases form_of_parseTrimmed read with rfl | ⟨rest, rfl⟩ | ⟨rest, rfl⟩ | ⟨rest, rfl⟩
    · obtain rfl := Except.ok.inj read
      exact ⟨trivial, rfl⟩
    · rw [parseTrimmed_aggregatedList, withResource_eq_ok] at read
      obtain ⟨word, rfl⟩ := read
      exact ⟨word, by rw [chars, String.toList_ofList]⟩
    · rw [parseTrimmed_list, withResource_eq_ok] at read
      obtain ⟨word, rfl⟩ := read
      exact ⟨word, by rw [chars, String.toList_ofList]⟩
    · by_cases ended : EndsInPolicy (String.ofList rest)
      · obtain ⟨front, rfl⟩ := endsInPolicy_iff.mp ended
        rw [parseTrimmed_iamPolicy, withResource_eq_ok] at read
        obtain ⟨word, rfl⟩ := read
        exact ⟨word, by rw [chars, String.toList_ofList]⟩
      · rw [parseTrimmed_plain ended, withResource_eq_ok] at read
        obtain ⟨word, rfl⟩ := read
        exact ⟨⟨word, ended⟩, by rw [chars, String.toList_ofList]⟩
  · rintro ⟨named, rfl⟩
    exact parseTrimmed_chars named

theorem parse_eq_ok {text : String} {a : Action} :
    parse text = .ok a ↔ a.HasName ∧ Text.trimmed text = a.render := by
  rw [parse, parseTrimmed_eq_ok, ← toList_render, ← String.toList_inj, Text.trimmed,
    String.toList_ofList]

theorem isName_iff {text : String} : IsName text ↔ ∃ a : Action, a.HasName ∧ text = a.render := by
  constructor
  · intro name
    cases name with
    | eval => exact ⟨eval, trivial, rfl⟩
    | list word => exact ⟨list _, word, rfl⟩
    | aggregatedList word => exact ⟨aggregatedList _, word, rfl⟩
    | iamPolicy word => exact ⟨iamPolicy _, word, rfl⟩
    | get word plain => exact ⟨get _, ⟨word, plain⟩, rfl⟩
  · rintro ⟨a, named, rfl⟩
    cases a with
    | eval => exact .eval
    | list r => exact .list named
    | aggregatedList r => exact .aggregatedList named
    | iamPolicy r => exact .iamPolicy named
    | get r => exact .get named.1 named.2

/-- What a text that is read as an action has to do with that action. -/
structure NameOf (text : String) (a : Action) : Prop where
  shown : a.render = Text.trimmed text
  back : parse a.render = .ok a
  /-- No other name is read as the same action. -/
  only : ∀ other, parse other = .ok a → Text.trimmed other = Text.trimmed text
  /-- Behind `get_` the last mark of a policy is taken off, and no other one. -/
  policy : ∀ r, Text.trimmed text = "get_" ++ r ++ "_iam_policy" → a = .iamPolicy r
  plain : ∀ r, Text.trimmed text = "get_" ++ r → ¬EndsInPolicy r → a = .get r

/-- A text is read as an action exactly if it is a name but for the blanks around it, and then it
is the name of that action alone. -/
theorem names_read_back (text : String) :
    ((∃ a, parse text = .ok a) ↔ IsName (Text.trimmed text)) ∧
    ∀ a, parse text = .ok a → NameOf text a := by
  refine ⟨?_, fun a read => ?_⟩
  · rw [isName_iff]
    exact exists_congr fun a => parse_eq_ok
  · obtain ⟨named, shown⟩ := parse_eq_ok.mp read
    have reads : ∀ name : String, Text.trimmed text = name → parseTrimmed name.toList = .ok a := by
      rintro name rfl
      rw [Text.trimmed, String.toList_ofList]
      exact read
    refine ⟨shown.symm, ?_, ?_, ?_, ?_⟩
    · rw [parse_eq_ok, ← shown, Text.trimmed_trimmed]
      exact ⟨named, rfl⟩
    · intro other again
      rw [(parse_eq_ok.mp again).2, shown]
    · intro r same
      have here := reads _ same
      rw [String.toList_append, String.toList_append, List.append_assoc] at here
      have made := withResource_eq_ok.mp ((parseTrimmed_iamPolicy r.toList).symm.trans here)
      rw [made.2, String.ofList_toList]
    · intro r same plain
      have here := reads _ same
      rw [String.toList_append] at here
      rw [← @String.ofList_toList r] at plain
      have made := withResource_eq_ok.mp ((parseTrimmed_plain plain).symm.trans here)
      rw [made.2, String.ofList_toList]

/-- Of two marks of a policy the last one is taken off; one that has nothing before it to stand
for a resource is the resource. -/
theorem policy_marks_read :
    parse " get_keys_iam_policy_iam_policy\n" = .ok (.iamPolicy "keys_iam_policy") ∧
    NameOf " get_keys_iam_policy_iam_policy\n" (.iamPolicy "keys_iam_policy") ∧
    parse "get_iam_policy" = .ok (.get "iam_policy") ∧
    NameOf "get_iam_policy" (.get "iam_policy") := by
  have doubled : parse " get_keys_iam_policy_iam_policy\n" =
      .ok (.iamPolicy "keys_iam_policy") := by decide +kernel
  have alone : parse "get_iam_policy" = .ok (.get "iam_policy") := by decide +kernel
  exact ⟨doubled, (names_read_back _).2 _ doubled, alone, (names_read_back _).2 _ alone⟩

end CloudAudit.Action
