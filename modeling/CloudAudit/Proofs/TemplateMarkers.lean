import CloudAudit.Template
import CloudAudit.Proofs.Success
import Mathlib.Data.List.Infix

set_option autoImplicit false

/- Markers in a text. An opening mark is two braces in a row and so is a closing one; the first
pair counts. Reading looks for the first marker, reads its body and goes on behind it. -/
namespace CloudAudit

namespace Template

/-! Pairs of a character, and cuts at the first one. -/

/-- A pair in two texts in a row lies in one of them or across the seam. -/
theorem pair_infix_append {c : Char} {front back : List Char} :
    [c, c] <:+: front ++ back ↔ [c, c] <:+: front ∨ [c, c] <:+: back ∨
      (front.getLast? = some c ∧ back.head? = some c) := by
  rw [List.infix_append_iff]
  constructor
  · rintro (inside | inside | ⟨left, right, both, ⟨before, rfl⟩, ⟨after, rfl⟩⟩)
    · exact .inl inside
    · exact .inr (.inl inside)
    · rcases left with _ | ⟨a, _ | ⟨b, left⟩⟩
      · have whole : [c, c] = right := both
        rw [← whole]
        exact .inr (.inl ⟨[], after, rfl⟩)
      · obtain ⟨rfl, rfl⟩ := List.cons.inj both
        exact .inr (.inr ⟨by simp, rfl⟩)
      · simp only [List.cons_append, List.cons.injEq, List.nil_eq, List.append_eq_nil_iff] at both
        obtain ⟨rfl, rfl, rfl, rfl⟩ := both
        exact .inl ⟨before, [], by simp⟩
  · rintro (inside | inside | ⟨last, first⟩)
    · exact .inl inside
    · exact .inr (.inl inside)
    · obtain ⟨before, rfl⟩ := List.getLast?_eq_some_iff.mp last
      obtain ⟨after, rfl⟩ := List.head?_eq_some_iff.mp first
      exact .inr (.inr ⟨[c], [c], rfl, ⟨before, rfl⟩, ⟨after, rfl⟩⟩)

theorem pair_infix_cons {a c : Char} {cs : List Char} :
    [c, c] <:+: a :: cs ↔ (a = c ∧ cs.head? = some c) ∨ [c, c] <:+: cs := by
  have alone : ¬[c, c] <:+: [a] := by
    intro inside
    have short := inside.length_le
    simp at short
  have seam := @pair_infix_append c [a] cs
  rw [List.singleton_append, or_iff_right alone, or_comm] at seam
  simpa using seam

/-- The characters are looked at one by one, each with the one behind it. -/
theorem cutAtDouble_cons (a c : Char) (cs : List Char) :
    cutAtDouble c (a :: cs) = if a = c ∧ cs.head? = some c then some ([], cs.tail)
      else (cutAtDouble c cs).map fun (before, after) => (a :: before, after) := by
  cases cs with
  | nil => simp [cutAtDouble]
  | cons b rest => simp only [cutAtDouble, List.head?_cons, Option.some.injEq, List.tail_cons]

theorem cutAtDouble_eq_none {c : Char} {cs : List Char} :
    cutAtDouble c cs = none ↔ ¬[c, c] <:+: cs := by
  induction cs with
  | nil => simp [cutAtDouble]
  | cons a cs ih =>
    rw [cutAtDouble_cons, pair_infix_cons]
    split
    · next here => simp [here]
    · next other => simp [other, ih]

/-- A cut is made at the first pair, and not a character later. -/
theorem cutAtDouble_eq_some {c : Char} {cs before after : List Char} :
    cutAtDouble c cs = some (before, after) ↔
      cs = before ++ [c, c] ++ after ∧ ¬[c, c] <:+: before ++ [c] := by
  induction cs generalizing before with
  | nil => simp [cutAtDouble]
  | cons a cs ih =>
    have first : ∀ front : List Char, (front ++ [c, c] ++ after).head? = (front ++ [c]).head? := by
      intro front
      cases front <;> rfl
    rw [cutAtDouble_cons]
    split
    · next here =>
      obtain ⟨rfl, next⟩ := here
      obtain ⟨rest, rfl⟩ := List.head?_eq_some_iff.mp next
      constructor
      · intro cut
        obtain ⟨rfl, rfl⟩ := Prod.mk.inj (Option.some.inj cut)
        refine ⟨rfl, fun inside => ?_⟩
        have short := inside.length_le
        simp at short
      · rintro ⟨whole, early⟩
        cases before with
        | nil =>
          obtain ⟨_, behind⟩ := List.cons.inj whole
          obtain ⟨_, rfl⟩ := List.cons.inj behind
          rfl
        | cons b before =>
          obtain ⟨rfl, behind⟩ := List.cons.inj whole
          have same : (before ++ [a]).head? = some a :=
            (first before).symm.trans ((congrArg List.head? behind).symm.trans next)
          rw [List.cons_append, pair_infix_cons] at early
          exact absurd (.inl ⟨rfl, same⟩) early
    · next other =>
      constructor
      · intro cut
        obtain ⟨⟨front, back⟩, found, same⟩ := Option.map_eq_some_iff.mp cut
        obtain ⟨rfl, rfl⟩ := Prod.mk.inj same
        obtain ⟨whole, early⟩ := ih.mp found
        rw [whole, first] at other
        refine ⟨by rw [whole]; rfl, ?_⟩
        rw [List.cons_append, pair_infix_cons]
        exact not_or.mpr ⟨other, early⟩
      · rintro ⟨whole, early⟩
        cases before with
        | nil =>
          obtain ⟨rfl, rfl⟩ := List.cons.inj whole
          exact absurd ⟨rfl, rfl⟩ other
        | cons b before =>
          obtain ⟨rfl, behind⟩ := List.cons.inj whole
          rw [List.cons_append, pair_infix_cons] at early
          rw [ih.mpr ⟨behind, (not_or.mp early).2⟩]
          rfl

/-- Bytes of characters are those of the text they make. -/
theorem byteLength_eq (cs : List Char) : byteLength cs = (String.ofList cs).utf8ByteSize := by
  have sum : ∀ n : Nat, cs.foldl (fun n c => n + c.utf8Size) n =
      n + (String.ofList cs).utf8ByteSize := by
    induction cs with
    | nil => intro n; rfl
    | cons c rest ih =>
      intro n
      have first : String.ofList (c :: rest) = String.singleton c ++ String.ofList rest := by
        rw [String.singleton_eq_ofList, ← String.ofList_append]
        rfl
      rw [List.foldl_cons, ih, first, String.utf8ByteSize_append, String.utf8ByteSize_singleton]
      omega
  rw [byteLength, sum, Nat.zero_add]

theorem byteLength_append (front back : List Char) :
    byteLength (front ++ back) = byteLength front + byteLength back := by
  rw [byteLength_eq, byteLength_eq, byteLength_eq, String.ofList_append, String.utf8ByteSize_append]

/-! Marks and what is read of a text. -/

def opening : List Char := ['\x7b', '\x7b']

def closing : List Char := ['\x7d', '\x7d']

/-- A text that opens a marker. -/
def Marked (text : String) : Prop := ['\x7b', '\x7b'] <:+: text.toList

instance (text : String) : Decidable (Marked text) :=
  inferInstanceAs (Decidable (['\x7b', '\x7b'] <:+: text.toList))

/-- The expression of a body, or why it has none. -/
def readBody (source : String) (body : List Char) : Except TemplateError Expr :=
  if Text.trim body = [] then .error (.emptyExpression source) else parseExpr (Text.trim body)

/-- Reading goes on behind a marker once its body is read. -/
theorem parseFrom_eq (source : String) (offset : Nat) (cs : List Char) :
    parseFrom source offset cs = match cutAtDouble '\x7b' cs with
      | none => .ok (textSegment cs)
      | some (before, after) => match cutAtDouble '\x7d' after with
        | none => .error (.unclosed source (offset + byteLength before))
        | some (body, rest) => (do
          let e ← readBody source body
          let more ← parseFrom source (offset + byteLength before + byteLength body + 4) rest
          pure (textSegment before ++ .expr e :: more)) := by
  rw [parseFrom]
  split
  · next absent => rw [absent]
  · next before after opened =>
    rw [opened]
    split
    · next absent => simp only [absent]
    · next body rest closed =>
      simp only [closed, readBody]
      by_cases blank : Text.trim body = []
      · simp only [if_pos blank]
        rfl
      · simp only [if_neg blank]

theorem cut_opening {before : List Char} (rest : List Char)
    (early : ¬opening <:+: before ++ ['\x7b']) :
    cutAtDouble '\x7b' (before ++ opening ++ rest) = some (before, rest) :=
  cutAtDouble_eq_some.mpr ⟨rfl, early⟩

theorem cut_closing {body : List Char} (rest : List Char)
    (first : ¬closing <:+: body ++ ['\x7d']) :
    cutAtDouble '\x7d' (body ++ closing ++ rest) = some (body, rest) :=
  cutAtDouble_eq_some.mpr ⟨rfl, first⟩

theorem parseFrom_plain {source : String} {offset : Nat} {cs : List Char}
    (plain : ¬opening <:+: cs) : parseFrom source offset cs = .ok (textSegment cs) := by
  have uncut : cutAtDouble '\x7b' cs = none := cutAtDouble_eq_none.mpr plain
  rw [parseFrom_eq, uncut]

theorem parseFrom_unclosed {source : String} {offset : Nat} {before rest : List Char}
    (early : ¬opening <:+: before ++ ['\x7b']) (never : ¬closing <:+: rest) :
    parseFrom source offset (before ++ opening ++ rest) =
      .error (.unclosed source (offset + byteLength before)) := by
  have uncut : cutAtDouble '\x7d' rest = none := cutAtDouble_eq_none.mpr never
  rw [parseFrom_eq, cut_opening rest early]
  simp only [uncut]

theorem parseFrom_marker {source : String} {offset : Nat} {before body rest : List Char}
    (early : ¬opening <:+: before ++ ['\x7b']) (first : ¬closing <:+: body ++ ['\x7d']) :
    parseFrom source offset (before ++ opening ++ (body ++ closing ++ rest)) =
      (do
        let e ← readBody source body
        let more ← parseFrom source
          (offset + byteLength (before ++ opening ++ (body ++ closing))) rest
        pure (textSegment before ++ .expr e :: more)) := by
  have consumed : offset + byteLength before + byteLength body + 4 =
      offset + byteLength (before ++ opening ++ (body ++ closing)) := by
    have marks : byteLength opening = 2 ∧ byteLength closing = 2 := by decide
    simp only [byteLength_append]
    omega
  rw [parseFrom_eq, cut_opening _ early, ← consumed]
  simp only [cut_closing rest first]

/-- A text has no marker, or a first one, which is closed or not. -/
theorem first_marker (cs : List Char) :
    ¬opening <:+: cs ∨
    ∃ before rest, cs = before ++ opening ++ rest ∧ ¬opening <:+: before ++ ['\x7b'] ∧
      (¬closing <:+: rest ∨
        ∃ body after, rest = body ++ closing ++ after ∧ ¬closing <:+: body ++ ['\x7d']) := by
  cases opened : cutAtDouble '\x7b' cs with
  | none => exact .inl (cutAtDouble_eq_none.mp opened)
  | some found =>
    obtain ⟨before, rest⟩ := found
    obtain ⟨whole, early⟩ := cutAtDouble_eq_some.mp opened
    refine .inr ⟨before, rest, whole, early, ?_⟩
    cases closed : cutAtDouble '\x7d' rest with
    | none => exact .inl (cutAtDouble_eq_none.mp closed)
    | some found =>
      obtain ⟨body, after⟩ := found
      exact .inr ⟨body, after, cutAtDouble_eq_some.mp closed⟩

/-- A text without markers is a template of that text alone. -/
theorem parse_plain {text : String} (plain : ¬Marked text) :
    parse text = .ok ⟨text, textSegment text.toList⟩ := by
  rw [parse, parseFrom_plain plain]
  rfl

end Template

end CloudAudit
