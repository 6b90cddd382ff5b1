import CloudAudit.Proofs.TemplateMarkers
import Mathlib.Data.List.Chain

set_option autoImplicit false

/- Layouts of a text: what stands around its markers, and their bodies. A text has one exact
layout at most. Its segments tell where it has text, and two layouts in a row are a layout of
the two texts in a row unless a mark stands across the seam. -/
namespace CloudAudit

namespace Template

/-- What a body reads as, blanks around it left out. -/
def BodyReads (body : List Char) (e : Expr) : Prop :=
  Text.trim body ≠ [] ∧ parseExpr (Text.trim body) = .ok e

/-- A text cut at its markers: what stands before a marker, its body and the rest behind it, or
what stands behind the last one. -/
inductive Layout where
  | plain (last : List Char)
  | marker (before body : List Char) (rest : Layout)

namespace Layout

def chars : Layout → List Char
  | plain last => last
  | marker before body rest => before ++ opening ++ (body ++ closing ++ rest.chars)

/-- The texts before, between and behind the markers. -/
def texts : Layout → List (List Char)
  | plain last => [last]
  | marker before _ rest => before :: rest.texts

def bodies : Layout → List (List Char)
  | plain _ => []
  | marker _ body rest => body :: rest.bodies

/-- Every mark is the first one where it stands: no text holds an opening mark and no body a
closing one, nor do they with the first brace of the mark behind them. The last text is followed
by `next`. -/
def Exact (next : List Char) : Layout → Prop
  | plain last => ¬opening <:+: last ++ next
  | marker before body rest =>
    ¬opening <:+: before ++ ['\x7b'] ∧ ¬closing <:+: body ++ ['\x7d'] ∧ rest.Exact next

instance (next : List Char) : (l : Layout) → Decidable (l.Exact next)
  | plain last => inferInstanceAs (Decidable (¬opening <:+: last ++ next))
  | marker before body rest =>
    have := instDecidableExact next rest
    inferInstanceAs (Decidable (¬opening <:+: before ++ ['\x7b'] ∧
      ¬closing <:+: body ++ ['\x7d'] ∧ rest.Exact next))

/-- Anything but an empty text. -/
def shown : Segment → Bool
  | .text s => s ≠ ""
  | .expr _ => true

/-- Texts with expressions between them. -/
def weave : List (List Char) → List Expr → List Segment
  | cs :: texts, e :: es => .text (String.ofList cs) :: .expr e :: weave texts es
  | texts, _ => texts.map fun cs => .text (String.ofList cs)

/-- The segments of a layout: its texts, as far as they are not empty, and between them what its
bodies read as. -/
def ReadsAs (l : Layout) (segments : List Segment) : Prop :=
  ∃ es, List.Forall₂ BodyReads l.bodies es ∧ segments = (weave l.texts es).filter shown

/-! Segments of a layout. -/

theorem filter_text (cs : List Char) (segments : List Segment) :
    (.text (String.ofList cs) :: segments).filter shown =
      textSegment cs ++ segments.filter shown := by
  unfold textSegment
  by_cases empty : cs = []
  · subst empty
    rw [List.filter_cons_of_neg (by simp [shown])]
    rfl
  · have filled : String.ofList cs ≠ "" := by simpa using empty
    rw [List.filter_cons_of_pos (by simpa [shown] using filled), if_neg empty]
    rfl

theorem readsAs_plain {last : List Char} {segments : List Segment} :
    (plain last).ReadsAs segments ↔ segments = textSegment last := by
  have alone : (weave [last] []).filter shown = textSegment last := by
    have single := filter_text last []
    rwa [List.filter_nil, List.append_nil] at single
  constructor
  · rintro ⟨es, each, rfl⟩
    obtain rfl := List.forall₂_nil_left_iff.mp each
    exact alone
  · rintro rfl
    exact ⟨[], .nil, alone.symm⟩

theorem readsAs_marker {before body : List Char} {rest : Layout} {segments : List Segment} :
    (marker before body rest).ReadsAs segments ↔ ∃ e more, BodyReads body e ∧
      rest.ReadsAs more ∧ segments = textSegment before ++ .expr e :: more := by
  have first : ∀ e es, (weave (before :: rest.texts) (e :: es)).filter shown =
      textSegment before ++ .expr e :: (weave rest.texts es).filter shown :=
    fun _ _ => filter_text before _
  constructor
  · rintro ⟨es, each, rfl⟩
    obtain ⟨e, es, here, others, rfl⟩ := List.forall₂_cons_left_iff.mp each
    exact ⟨e, _, here, ⟨es, others, rfl⟩, first e es⟩
  · rintro ⟨e, more, here, ⟨es, others, rfl⟩, rfl⟩
    exact ⟨e :: es, .cons here others, (first e es).symm⟩

/-! What a text looks like, told from its segments. -/

theorem Exact.no_opening {next : List Char} : ∀ {l : Layout}, l.Exact next →
    ∀ cs ∈ l.texts, ¬opening <:+: cs
  | .plain last, exact, cs, member => by
    obtain rfl := List.mem_singleton.mp member
    exact fun inside => exact (inside.trans (List.prefix_append ..).isInfix)
  | .marker before body rest, ⟨early, _, exact⟩, cs, member => by
    rcases List.mem_cons.mp member with rfl | later
    · exact fun inside => early (inside.trans (List.prefix_append ..).isInfix)
    · exact exact.no_opening cs later

theorem Exact.no_closing {next : List Char} : ∀ {l : Layout}, l.Exact next →
    ∀ body ∈ l.bodies, ¬closing <:+: body
  | .plain _, _, _, member => absurd member List.not_mem_nil
  | .marker before inner rest, ⟨_, first, exact⟩, body, member => by
    rcases List.mem_cons.mp member with rfl | later
    · exact fun inside => first (inside.trans (List.prefix_append ..).isInfix)
    · exact exact.no_closing body later

theorem opening_within (before body : List Char) (rest : Layout) :
    opening <:+: (marker before body rest).chars :=
  ⟨before, body ++ closing ++ rest.chars, rfl⟩

/-- A text has no other layout than the one it is read by. -/
theorem Exact.unique {l m : Layout} (left : l.Exact []) (right : m.Exact [])
    (same : l.chars = m.chars) : l = m := by
  have plain : ∀ {last : List Char} {before body : List Char} {rest : Layout},
      (plain last).Exact [] → last ≠ (marker before body rest).chars := by
    rintro last before body rest exact rfl
    exact exact.no_opening _ (List.mem_singleton_self _) (opening_within before body rest)
  induction l generalizing m with
  | plain last =>
    cases m with
    | plain other => exact congrArg Layout.plain same
    | marker before body rest => exact absurd same (plain left)
  | marker before body rest ih =>
    cases m with
    | plain other => exact absurd same.symm (plain right)
    | marker before' body' rest' =>
      obtain ⟨early, first, exact⟩ := left
      obtain ⟨early', first', exact'⟩ := right
      have opened := cut_opening (body ++ closing ++ rest.chars) early
      rw [← chars, same, chars, cut_opening _ early'] at opened
      obtain ⟨rfl, behind⟩ := Prod.mk.inj (Option.some.inj opened)
      have closed := cut_closing rest.chars first
      rw [← behind, cut_closing rest'.chars first'] at closed
      obtain ⟨rfl, after⟩ := Prod.mk.inj (Option.some.inj closed)
      rw [ih exact exact' after.symm]

theorem ReadsAs.no_empty {l : Layout} {segments : List Segment} (reads : l.ReadsAs segments) :
    .text "" ∉ segments := by
  obtain ⟨es, _, rfl⟩ := reads
  intro member
  have filled := (List.mem_filter.mp member).2
  simp [shown] at filled

/-- Two texts in a row. -/
def BothTexts (first second : Segment) : Prop := ∃ s u, first = .text s ∧ second = .text u

theorem ReadsAs.apart {l : Layout} {segments : List Segment} (reads : l.ReadsAs segments) :
    segments.IsChain fun first second => ¬BothTexts first second := by
  induction l generalizing segments with
  | plain last =>
    obtain rfl := readsAs_plain.mp reads
    unfold textSegment
    split
    · exact .nil
    · exact .singleton _
  | marker before body rest ih =>
    obtain ⟨e, more, _, others, rfl⟩ := readsAs_marker.mp reads
    have behind : (Segment.expr e :: more).IsChain fun first second => ¬BothTexts first second := by
      apply List.isChain_cons.mpr
      refine ⟨?_, ih others⟩
      rintro _ _ ⟨s, _, same, _⟩
      cases same
    unfold textSegment
    split
    · exact behind
    · apply List.isChain_cons_cons.mpr
      refine ⟨?_, behind⟩
      rintro ⟨_, u, _, same⟩
      cases same

theorem readsAs_nil {l : Layout} (reads : l.ReadsAs []) : l = plain [] := by
  cases l with
  | plain last =>
    have none := readsAs_plain.mp reads
    unfold textSegment at none
    split at none
    · next empty => rw [empty]
    · cases none
  | marker before body rest =>
    obtain ⟨e, more, _, _, none⟩ := readsAs_marker.mp reads
    simp at none

theorem ReadsAs.isLiteral_iff {l : Layout} {t : Template} (reads : l.ReadsAs t.segments)
    (exact : l.Exact []) : t.isLiteral = true ↔ ¬opening <:+: l.chars := by
  unfold isLiteral
  cases l with
  | plain last =>
    have unmarked : ¬opening <:+: last := exact.no_opening _ (List.mem_singleton_self _)
    rw [readsAs_plain.mp reads]
    refine iff_of_true ?_ unmarked
    unfold textSegment
    split <;> rfl
  | marker before body rest =>
    obtain ⟨e, more, _, _, whole⟩ := readsAs_marker.mp reads
    refine iff_of_false ?_ (not_not.mpr (opening_within before body rest))
    rw [whole]
    simp

/-- The only expression of a template without texts is its only marker. -/
theorem ReadsAs.single?_isSome_iff {l : Layout} {t : Template} (reads : l.ReadsAs t.segments) :
    t.single?.isSome = true ↔ ∃ body, l = marker [] body (plain []) := by
  cases l with
  | plain last =>
    have none : t.single? = none := by
      unfold single?
      rw [readsAs_plain.mp reads, textSegment]
      by_cases empty : last = [] <;> simp [empty]
    simp [none]
  | marker before body rest =>
    obtain ⟨e, more, _, others, whole⟩ := readsAs_marker.mp reads
    unfold single?
    rw [whole, textSegment]
    by_cases bare : before = []
    · subst bare
      cases more with
      | nil => simp [readsAs_nil others]
      | cons next more =>
        have filled : rest ≠ plain [] := by
          rintro rfl
          cases readsAs_plain.mp others
        simp [filled]
    · simp [bare]

end Layout

/-! Two texts in a row. -/

/-- Segments in which every text is joined with the texts right behind it. -/
def joinTexts : List Segment → List Segment
  | [] => []
  | .expr e :: rest => .expr e :: joinTexts rest
  | .text a :: rest => match joinTexts rest with
    | .text b :: more => .text (a ++ b) :: more
    | joined => .text a :: joined

/-- Texts that stand side by side become one, and what is behind them is joined by itself. -/
theorem joinTexts_texts (front back : List Char) {more : List Segment}
    (other : ∀ s tail, more ≠ .text s :: tail) :
    joinTexts (textSegment front ++ (textSegment back ++ more)) =
      textSegment (front ++ back) ++ joinTexts more := by
  have kept : ∀ s, joinTexts (.text s :: more) = .text s :: joinTexts more := by
    intro s
    rcases more with _ | ⟨⟨t⟩ | e, tail⟩
    · rfl
    · exact absurd rfl (other t tail)
    · rfl
  have met : ∀ s u, joinTexts (.text s :: .text u :: more) = .text (s ++ u) :: joinTexts more := by
    intro s u
    rw [joinTexts, kept]
  unfold textSegment
  by_cases first : front = []
  · by_cases second : back = [] <;> simp [first, second, kept]
  · by_cases second : back = []
    · simp [first, second, kept]
    · simp [first, second, met, String.ofList_append]

theorem joinTexts_before (before : List Char) (e : Expr) (more : List Segment) :
    joinTexts (textSegment before ++ .expr e :: more) =
      textSegment before ++ .expr e :: joinTexts more :=
  joinTexts_texts [] before (by simp)

namespace Layout

theorem ReadsAs.joined {l : Layout} {segments : List Segment} (reads : l.ReadsAs segments) :
    joinTexts segments = segments := by
  induction l generalizing segments with
  | plain last =>
    obtain rfl := readsAs_plain.mp reads
    have alone := @joinTexts_texts [] last [] (by simp)
    rw [List.append_nil] at alone
    exact alone.trans (List.append_nil _)
  | marker before body rest ih =>
    obtain ⟨e, more, _, others, rfl⟩ := readsAs_marker.mp reads
    rw [joinTexts_before, ih others]

/-- The layout with characters in front of it. -/
def withFront (cs : List Char) : Layout → Layout
  | plain last => plain (cs ++ last)
  | marker before body rest => marker (cs ++ before) body rest

/-- Two layouts in a row: the last text of the one runs on into the first text of the other. -/
def append : Layout → Layout → Layout
  | plain last, m => m.withFront last
  | marker before body rest, m => marker before body (rest.append m)

theorem chars_withFront (cs : List Char) (m : Layout) : (m.withFront cs).chars = cs ++ m.chars := by
  cases m with
  | plain last => rfl
  | marker before body rest => simp only [withFront, chars, List.append_assoc]

theorem chars_append (l m : Layout) : (l.append m).chars = l.chars ++ m.chars := by
  induction l with
  | plain last => exact chars_withFront last m
  | marker before body rest ih => simp only [append, chars, ih, List.append_assoc]

theorem Exact.withFront {m : Layout} (exact : m.Exact []) {cs : List Char}
    (unmarked : ¬opening <:+: cs)
    (seam : ¬(cs.getLast? = some '\x7b' ∧ m.chars.head? = some '\x7b')) :
    (m.withFront cs).Exact [] := by
  cases m with
  | plain last =>
    have own : ¬opening <:+: last := exact.no_opening _ (List.mem_singleton_self _)
    have whole := not_or.mpr ⟨unmarked, not_or.mpr ⟨own, seam⟩⟩
    unfold Layout.withFront Exact
    rw [List.append_nil]
    exact fun inside => whole (pair_infix_append.mp inside)
  | marker before body rest =>
    obtain ⟨early, first, exact⟩ := exact
    have start : (marker before body rest).chars.head? = (before ++ ['\x7b']).head? := by
      cases before <;> rfl
    rw [start] at seam
    have whole := not_or.mpr ⟨unmarked, not_or.mpr ⟨early, seam⟩⟩
    refine ⟨fun inside => whole ?_, first, exact⟩
    rw [List.append_assoc] at inside
    exact pair_infix_append.mp inside

theorem Exact.append {l m : Layout} (left : l.Exact []) (right : m.Exact [])
    (seam : ¬(l.chars.getLast? = some '\x7b' ∧ m.chars.head? = some '\x7b')) :
    (l.append m).Exact [] := by
  induction l with
  | plain last => exact right.withFront (left.no_opening _ (List.mem_singleton_self _)) seam
  | marker before body rest ih =>
    obtain ⟨early, first, exact⟩ := left
    refine ⟨early, first, ih exact ?_⟩
    rintro ⟨last, next⟩
    refine seam ⟨?_, next⟩
    rw [chars, List.getLast?_append, List.getLast?_append, last]
    rfl

theorem ReadsAs.withFront {m : Layout} {segments : List Segment} (reads : m.ReadsAs segments)
    (cs : List Char) : (m.withFront cs).ReadsAs (joinTexts (textSegment cs ++ segments)) := by
  cases m with
  | plain last =>
    obtain rfl := readsAs_plain.mp reads
    have joined := @joinTexts_texts cs last [] (by simp)
    rw [List.append_nil] at joined
    rw [joined]
    exact readsAs_plain.mpr (List.append_nil _)
  | marker before body rest =>
    obtain ⟨e, more, here, others, rfl⟩ := readsAs_marker.mp reads
    rw [joinTexts_texts cs before (by simp), joinTexts, others.joined]
    exact readsAs_marker.mpr ⟨e, more, here, others, rfl⟩

theorem ReadsAs.append {l m : Layout} {front back : List Segment} (left : l.ReadsAs front)
    (right : m.ReadsAs back) : (l.append m).ReadsAs (joinTexts (front ++ back)) := by
  induction l generalizing front with
  | plain last =>
    obtain rfl := readsAs_plain.mp left
    exact right.withFront last
  | marker before body rest ih =>
    obtain ⟨e, more, here, others, rfl⟩ := readsAs_marker.mp left
    rw [List.append_assoc, List.cons_append, joinTexts_before]
    exact readsAs_marker.mpr ⟨e, _, here, ih others, rfl⟩

end Layout

end Template

end CloudAudit
