import CloudAudit.Proofs.IntegerText
import CloudAudit.Proofs.TemplateReading
import CloudAudit.Proofs.TextTrim
import CloudAudit.Resolve

set_option autoImplicit false

/- Literals in templates. A marker is cut out before its body is looked at, so text in quotes
stands for itself just where it holds no closing mark. An integer is read with a sign and 63 bits;
a greater one becomes the nearest double. -/
namespace CloudAudit

-- Powers are core's, also where an algebra library is imported.
attribute [local instance (high)] instPowNat

theorem Scope.resolveSegments_append (s : Scope) (front back : List Segment) :
    s.resolveSegments (front ++ back) = (do
      let a ← s.resolveSegments front
      let b ← s.resolveSegments back
      pure (a ++ b)) := by
  induction front with
  | nil =>
    rw [List.nil_append, resolveSegments]
    cases s.resolveSegments back with
    | error e => rfl
    | ok b => exact congrArg Except.ok String.empty_append.symm
  | cons segment rest ih =>
    cases segment with
    | text text =>
      rw [List.cons_append, resolveSegments, resolveSegments, ih]
      cases s.resolveSegments rest with
      | error e => rfl
      | ok a => cases s.resolveSegments back with
        | error e => rfl
        | ok b => exact congrArg Except.ok (String.append_assoc ..).symm
    | expr e =>
      rw [List.cons_append, resolveSegments, resolveSegments, ih]
      cases s.resolveExpr e with
      | error e => rfl
      | ok v => cases s.resolveSegments rest with
        | error e => rfl
        | ok a => cases s.resolveSegments back with
          | error e => rfl
          | ok b => exact congrArg Except.ok (String.append_assoc ..).symm

namespace Template

/-- An expression parts the texts in front of it from those behind. -/
theorem joinTexts_expr (front back : List Segment) (e : Expr) :
    joinTexts (front ++ .expr e :: back) = joinTexts front ++ .expr e :: joinTexts back := by
  induction front with
  | nil => rfl
  | cons segment rest ih =>
    cases segment with
    | expr other => rw [List.cons_append, joinTexts, joinTexts, ih, List.cons_append]
    | text a =>
      rw [List.cons_append, joinTexts, joinTexts, ih]
      rcases joinTexts rest with _ | ⟨⟨b⟩ | other, more⟩ <;> rfl

/-- An expression with anything around it is not the only one there is. -/
theorem single?_among {text : String} {front back : List Segment} {e : Expr}
    (more : front ≠ [] ∨ back ≠ []) : single? ⟨text, front ++ .expr e :: back⟩ = none := by
  rcases front with _ | ⟨⟨_⟩ | _, _ | ⟨_, _⟩⟩
  · rcases back with _ | ⟨_, _⟩
    · exact absurd rfl (more.resolve_left fun filled => filled rfl)
    · rfl
  all_goals rfl

/-- A text that reads as nothing is empty. -/
theorem segments_ne_nil {text : String} {t : Template} (read : parse text = .ok t)
    (filled : text ≠ "") : t.segments ≠ [] := by
  intro none
  obtain ⟨_, l, chars, _, reads⟩ := parse_eq_ok.mp read
  rw [none] at reads
  rw [Layout.readsAs_nil reads] at chars
  exact filled (String.toList_eq_nil_iff.mp chars.symm)

/-- The marker around a body. -/
def markerOf (body : String) : String := "\x7b\x7b " ++ body ++ " \x7d\x7d"

/-- What a body stands for: alone in its marker, a value in every scope; within a longer template,
a text. A brace right before the marker would be taken for its first one. -/
structure Denotes (body : String) (v : Json) (shown : String) : Prop where
  alone : ∃ t, parse (markerOf body) = .ok t ∧ t.single? = some (.literal v) ∧
    ∀ s : Scope, s.resolve t = .ok v
  within : ∀ before behind t u, parse before = .ok t → parse behind = .ok u →
    before.toList.getLast? ≠ some '\x7b' → before ≠ "" ∨ behind ≠ "" →
    ∃ whole, parse (before ++ markerOf body ++ behind) = .ok whole ∧
      ∀ s : Scope, s.resolve whole = (do
        let a ← s.resolveSegments t.segments
        let b ← s.resolveSegments u.segments
        pure (.string (a ++ shown ++ b)))

section

variable {body : String} {v : Json}

/-- Characters that a marker around them holds as they are. -/
structure Held (cs : List Char) : Prop where
  filled : cs ≠ []
  first : ∀ c, cs.head? = some c → Text.isBlank c = false
  last : ∀ c, cs.getLast? = some c → Text.isBlank c = false
  unclosed : ¬closing <:+: cs

/-- Characters of a marker's body, with the blanks around it. -/
def padded (cs : List Char) : List Char := ' ' :: (cs ++ [' '])

theorem toList_markerOf (body : String) :
    (markerOf body).toList = opening ++ padded body.toList ++ closing := by
  simp [markerOf, opening, padded, closing]

theorem closing_padded (cs : List Char) : closing <:+: padded cs ++ ['\x7d'] ↔ closing <:+: cs := by
  have tail : ¬closing <:+: [' ', '\x7d'] := by decide
  have whole : padded cs ++ ['\x7d'] = ' ' :: (cs ++ [' ', '\x7d']) := by simp [padded]
  rw [whole, closing, pair_infix_cons, pair_infix_append, ← closing]
  simp [tail]

theorem Held.reads {cs : List Char} (held : Held cs) {e : Expr} (read : parseExpr cs = .ok e) :
    BodyReads (padded cs) e := by
  have blank : ∀ c ∈ [' '], Text.isBlank c = true := List.forall_mem_singleton.mpr (by decide)
  have trimmed : Text.trim (padded cs) = cs :=
    @Text.trim_padded [' '] cs [' '] blank blank held.first held.last
  rw [BodyReads, trimmed]
  exact ⟨held.filled, read⟩

/-- A marker is read where it stands, between what is read before it and behind it. -/
theorem Held.parse_around (held : Held body.toList) {e : Expr}
    (read : parseExpr body.toList = .ok e) {before behind : String} {t u : Template}
    (read_before : parse before = .ok t) (read_behind : parse behind = .ok u)
    (seam : before.toList.getLast? ≠ some '\x7b') :
    parse (before ++ markerOf body ++ behind) =
      .ok ⟨before ++ markerOf body ++ behind, t.segments ++ .expr e :: u.segments⟩ := by
  obtain ⟨_, l, chars, exact, reads⟩ := parse_eq_ok.mp read_before
  obtain ⟨_, m, chars', exact', reads'⟩ := parse_eq_ok.mp read_behind
  let k : Layout := .marker [] (padded body.toList) m
  have marked : k.Exact [] := ⟨by decide, (closing_padded _).not.mpr held.unclosed, exact'⟩
  have segments : k.ReadsAs (.expr e :: u.segments) :=
    Layout.readsAs_marker.mpr ⟨_, _, held.reads read, reads', rfl⟩
  have whole : (l.append k).ReadsAs (t.segments ++ .expr e :: u.segments) := by
    have joined := reads.append segments
    rwa [joinTexts_expr, reads.joined, reads'.joined] at joined
  have together : (l.append k).chars = (before ++ markerOf body ++ behind).toList := by
    rw [Layout.chars_append, chars, String.toList_append, String.toList_append, toList_markerOf,
      ← chars']
    simp [k, Layout.chars]
  exact parse_eq_ok.mpr
    ⟨rfl, _, together, exact.append marked fun met => seam (chars ▸ met.1), whole⟩

theorem Denotes.of_read (held : Held body.toList)
    (read : parseExpr body.toList = .ok (.literal v)) : Denotes body v (Scope.renderInline v) where
  alone := by
    have empty : parse "" = .ok ⟨"", []⟩ := parse_plain (by decide)
    have parsed := held.parse_around read empty empty (by decide)
    rw [String.empty_append, String.append_empty] at parsed
    exact ⟨_, parsed, rfl, fun s => rfl⟩
  within := by
    intro before behind t u read_before read_behind seam filled
    refine ⟨_, held.parse_around read read_before read_behind seam, fun s => ?_⟩
    have several := filled.imp (segments_ne_nil read_before) (segments_ne_nil read_behind)
    rw [Scope.resolve, single?_among several, Scope.resolveSegments_append, Scope.resolveSegments]
    cases s.resolveSegments t.segments with
    | error e => rfl
    | ok a => cases s.resolveSegments u.segments with
      | error e => rfl
      | ok b => exact congrArg (Except.ok ∘ Json.string) (String.append_assoc ..).symm

/-- Only a body that starts with one of three letters can be a word. -/
theorem parseExpr_value {cs : List Char} (value : ∀ c, cs.head? = some c → c ∉ ['t', 'f', 'n']) :
    parseExpr cs = match quoted? cs with
      | some text => .ok (.literal (.string (String.ofList text)))
      | none => match number? cs with
        | some n => .ok (.literal (.number n))
        | none => (Path.parse (String.ofList cs)).map .path := by
  have word : ∀ (text : String) (c : Char), c ∈ ['t', 'f', 'n'] → text.toList.head? = some c →
      cs ≠ text.toList := by
    rintro text c letter first rfl
    exact value c first letter
  unfold parseExpr
  have no_true := word "true" 't' (by decide) (by decide)
  have no_false := word "false" 'f' (by decide) (by decide)
  have no_null := word "null" 'n' (by decide) (by decide)
  exact (if_neg no_true).trans ((if_neg no_false).trans (if_neg no_null))

/-! Text in quotes. -/

/-- Text between single quotes. -/
def quoted (cs : List Char) : List Char := '\'' :: (cs ++ ['\''])

theorem parseExpr_quoted (cs : List Char) :
    parseExpr (quoted cs) = .ok (.literal (.string (String.ofList cs))) := by
  have quotes : quoted? (quoted cs) = some cs := by simp [quoted?, quoted]
  have value : ∀ c, (quoted cs).head? = some c → c ∉ ['t', 'f', 'n'] := by
    intro c first
    obtain rfl := Option.some.inj first
    decide
  rw [parseExpr_value value, quotes]

theorem closing_quoted (cs : List Char) : closing <:+: quoted cs ↔ closing <:+: cs := by
  have tail : ¬closing <:+: ['\''] := by decide
  rw [quoted, closing, pair_infix_cons, pair_infix_append, ← closing]
  simp [tail]

theorem held_quoted {cs : List Char} (free : ¬closing <:+: cs) : Held (quoted cs) where
  filled := List.cons_ne_nil _ _
  first c first := by
    obtain rfl := Option.some.inj first
    decide
  last c last := by
    have quote : (quoted cs).getLast? = some '\'' := List.getLast?_concat (l := '\'' :: cs)
    rw [quote] at last
    obtain rfl := Option.some.inj last
    decide
  unclosed := (closing_quoted cs).not.mpr free

/-! Integers. -/

/-- Characters of an integer are digits and a minus. -/
theorem bounds_of_mem {n : Int} {c : Char} (member : c ∈ (toString n).toList) :
    (Number.isDigit c = true ∨ c = '-') ∧ 45 ≤ c.toNat ∧ c.toNat ≤ 57 := by
  have shown : Number.isDigit c = true ∨ c = '-' := by
    rw [Number.toList_toString] at member
    split at member
    · exact (List.mem_cons.mp member).symm.imp_left Number.isDigit_toDigits
    · exact .inl (Number.isDigit_toDigits member)
  refine ⟨shown, ?_⟩
  rcases shown with digit | rfl
  · obtain ⟨lower, upper⟩ := (Number.isDigit_iff c).mp digit
    omega
  · decide

theorem toString_ne_nil (n : Int) : (toString n).toList ≠ [] := by
  rw [Number.toList_toString]
  split
  · exact List.cons_ne_nil _ _
  · exact Nat.toDigits_ne_nil

theorem held_toString (n : Int) : Held (toString n).toList := by
  have shown : ∀ c ∈ (toString n).toList, Text.isBlank c = false := by
    intro c member
    obtain ⟨_, lower, upper⟩ := bounds_of_mem member
    simp only [Text.isBlank, Bool.or_eq_false_iff, Bool.and_eq_false_iff, decide_eq_false_iff_not,
      beq_eq_false_iff_ne]
    omega
  refine ⟨toString_ne_nil n, fun c first => shown c (List.mem_of_head? first),
    fun c last => shown c (List.mem_of_getLast? last), fun inside => ?_⟩
  obtain ⟨_, _, upper⟩ := bounds_of_mem (inside.subset (List.mem_cons_self (a := '\x7d')))
  exact absurd upper (by decide)

/-- The number an integer is read as. -/
def literalNumber (n : Int) : Number :=
  if n < 2 ^ (63 : Nat) then .integer n else .double (Binary64.ofInt n)

theorem number?_toString {n : Int} (word : Binary64.IsWord n) :
    number? (toString n).toList = some (literalNumber n) := by
  obtain ⟨lower, upper⟩ := word
  cases chars : (toString n).toList with
  | nil => exact absurd chars (toString_ne_nil n)
  | cons c rest =>
    have first := (bounds_of_mem (chars ▸ List.mem_cons_self)).1
    rw [number?, if_pos (by simpa using first), ← chars, Number.int64?_toString, literalNumber]
    by_cases small : n < 2 ^ (63 : Nat)
    · simp only [lower, small, and_self, ↓reduceIte]
    · simp only [lower, small, and_false, ↓reduceIte]
      rw [Number.finite?_toString ⟨lower, upper⟩ (by omega), Option.map_some]

theorem parseExpr_toString {n : Int} (word : Binary64.IsWord n) :
    parseExpr (toString n).toList = .ok (.literal (.number (literalNumber n))) := by
  have bounds : ∀ c, (toString n).toList.head? = some c → 45 ≤ c.toNat ∧ c.toNat ≤ 57 :=
    fun c first => (bounds_of_mem (List.mem_of_head? first)).2
  have value : ∀ c, (toString n).toList.head? = some c → c ∉ ['t', 'f', 'n'] := by
    intro c first member
    obtain ⟨_, upper⟩ := bounds c first
    simp only [List.mem_cons, List.not_mem_nil, or_false] at member
    rcases member with rfl | rfl | rfl <;> exact absurd upper (by decide)
  have unquoted : quoted? (toString n).toList = none := by
    cases chars : (toString n).toList with
    | nil => rfl
    | cons c rest =>
      obtain ⟨lower, _⟩ := bounds c (by rw [chars]; rfl)
      rw [quoted?, if_neg]
      rintro ⟨rfl | rfl, _⟩ <;> exact absurd lower (by decide)
  rw [parseExpr_value value, unquoted, number?_toString word]

end

/-- Text in single quotes denotes itself unless it holds a closing mark, and then its marker is
not the only expression. An integer of 63 bits and a sign denotes itself; a greater one denotes
the nearest double. -/
theorem literals_denote (text : String) (n : Int) :
    (¬closing <:+: text.toList → Denotes ("'" ++ text ++ "'") (.string text) text) ∧
    (closing <:+: text.toList → ∀ t, parse (markerOf ("'" ++ text ++ "'")) = .ok t →
      t.single? = none) ∧
    (-(2 ^ (63 : Nat)) ≤ n → n < 2 ^ (63 : Nat) → Denotes (toString n) (.int n) (toString n)) ∧
    (2 ^ (63 : Nat) ≤ n → n < 2 ^ (64 : Nat) → (Binary64.ofInt n).IsNearest n ∧
      Denotes (toString n) (.number (.double (Binary64.ofInt n)))
        ((Binary64.ofInt n).render jsonLayout)) := by
  have quotes : ("'" ++ text ++ "'").toList = quoted text.toList := by simp [quoted]
  have integer : Binary64.IsWord n →
      Denotes (toString n) (.number (literalNumber n)) (literalNumber n).render := fun word =>
    .of_read (held_toString n) (parseExpr_toString word)
  refine ⟨fun free => ?_, fun marked t read => ?_, fun lower upper => ?_, fun lower upper => ?_⟩
  · have denotes := @Denotes.of_read ("'" ++ text ++ "'") (.string text)
    rw [quotes] at denotes
    refine denotes (held_quoted free) ?_
    rw [parseExpr_quoted, String.ofList_toList]
  · rw [← Option.not_isSome_iff_eq_none, single?_isSome_iff read]
    rintro ⟨body, whole, first⟩
    rw [toList_markerOf, quotes] at whole
    obtain rfl := List.append_cancel_left (List.append_cancel_right whole)
    exact first ((closing_padded _).mpr ((closing_quoted _).mpr marked))
  · have denotes := integer ⟨lower, by omega⟩
    rwa [literalNumber, if_pos upper] at denotes
  · have word : Binary64.IsWord n := ⟨by omega, upper⟩
    have denotes := integer word
    rw [literalNumber, if_neg (by omega)] at denotes
    exact ⟨Binary64.ofInt_isNearest word, denotes⟩

/-- A closing mark that is quoted ends the marker all the same. -/
theorem parse_closing_quoted : parse (markerOf "'a\x7d\x7db'") = .ok ⟨markerOf "'a\x7d\x7db'",
    [.expr (.path ⟨"'a", [.key "'a"]⟩), .text "b' \x7d\x7d"]⟩ := by
  have name : BodyReads " 'a".toList (.path ⟨"'a", [.key "'a"]⟩) := ⟨by decide, rfl⟩
  exact parse_eq_ok.mpr ⟨rfl, .marker [] " 'a".toList (.plain "b' \x7d\x7d".toList), by decide,
    by decide, [_], .cons name .nil, rfl⟩

/-- Quotes, blanks and single braces stay, a mark does not; the least integer stays and the greatest
does not. -/
theorem notes_denoted :
    ¬closing <:+: " it's \x7b\x7b due \x7d".toList ∧
    Denotes "' it's \x7b\x7b due \x7d'" (.string " it's \x7b\x7b due \x7d") " it's \x7b\x7b due \x7d" ∧
    closing <:+: "a\x7d\x7db".toList ∧
    single? ⟨markerOf "'a\x7d\x7db'", [.expr (.path ⟨"'a", [.key "'a"]⟩), .text "b' \x7d\x7d"]⟩ =
      none ∧
    Denotes "-9223372036854775808" (.int (-9223372036854775808)) "-9223372036854775808" ∧
    Denotes "18446744073709551615" (.number (.double (Binary64.ofInt 18446744073709551615)))
      "1.8446744073709552e+19" := by
  have free : ¬closing <:+: " it's \x7b\x7b due \x7d".toList := by decide
  have closed : closing <:+: "a\x7d\x7db".toList := by decide
  obtain ⟨kept, _, integer, _⟩ := literals_denote " it's \x7b\x7b due \x7d" (-9223372036854775808)
  obtain ⟨_, lost, _, greater⟩ := literals_denote "a\x7d\x7db" 18446744073709551615
  have least := integer (by decide) (by decide)
  have greatest := (greater (by decide) (by decide)).2
  have written : toString (-9223372036854775808 : Int) = "-9223372036854775808" ∧
      toString (18446744073709551615 : Int) = "18446744073709551615" := by
    decide +kernel
  have rendered : (Binary64.ofInt 18446744073709551615).render jsonLayout =
      "1.8446744073709552e+19" := by
    decide +kernel
  rw [written.1] at least
  rw [rendered, written.2] at greatest
  exact ⟨free, kept free, closed, lost closed _ parse_closing_quoted, least, greatest⟩

/-- Text with a closing mark in it is not found, and the greatest integer comes out one greater. -/
theorem literals_fall_short :
    (∃ t, parse (markerOf "'a\x7d\x7db'") = .ok t ∧
      Scope.empty.resolve t = .error ⟨"'a"⟩) ∧
    ∃ t x, parse (markerOf "18446744073709551615") = .ok t ∧
      (∀ s : Scope, s.resolve t = .ok (.number (.double x))) ∧
      x.signedUnits = (18446744073709551615 + 1) * Binary64.unitsOfOne := by
  refine ⟨⟨_, parse_closing_quoted, rfl⟩, ?_⟩
  have word : Binary64.IsWord 18446744073709551615 := by decide
  obtain ⟨t, read, _, everywhere⟩ :=
    (Denotes.of_read (held_toString 18446744073709551615) (parseExpr_toString word)).alone
  exact ⟨t, _, read, everywhere, by decide +kernel⟩

end Template

end CloudAudit
