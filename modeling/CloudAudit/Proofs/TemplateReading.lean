import CloudAudit.Proofs.TemplateLayout
import CloudAudit.Resolve

set_option autoImplicit false

/- Templates as texts cut at their markers. Reading a text gives what stands around the markers
and the expressions in them, in order, or the fault of the leftmost bad marker. So the template
of two texts in a row is made of their templates, unless a mark stands across the seam. -/
namespace CloudAudit

namespace Template

/-- What is wrong with a marker whose opening mark stands at a byte of a text and is followed by
the given characters. -/
inductive BadMarker (source : String) (position : Nat) : List Char → TemplateError → Prop where
  | unclosed {rest : List Char} (never : ¬closing <:+: rest) :
    BadMarker source position rest (.unclosed source position)
  | empty {body after : List Char} (first : ¬closing <:+: body ++ ['\x7d'])
    (blank : Text.trim body = []) :
    BadMarker source position (body ++ closing ++ after) (.emptyExpression source)
  | invalid {body after : List Char} {e : TemplateError} (first : ¬closing <:+: body ++ ['\x7d'])
    (filled : Text.trim body ≠ []) (fails : parseExpr (Text.trim body) = .error e) :
    BadMarker source position (body ++ closing ++ after) e

theorem readBody_eq_ok {source : String} {body : List Char} {e : Expr} :
    readBody source body = .ok e ↔ BodyReads body e := by
  rw [readBody, BodyReads]
  split
  · next blank => simp [blank]
  · next filled => simp [filled]

theorem readBody_eq_error {source : String} {position : Nat} {body after : List Char}
    {e : TemplateError} (first : ¬closing <:+: body ++ ['\x7d']) :
    readBody source body = .error e → BadMarker source position (body ++ closing ++ after) e := by
  rw [readBody]
  split
  · next blank =>
    intro fails
    obtain rfl := Except.error.inj fails
    exact .empty first blank
  · next filled => exact .invalid first filled

open Layout

/-- Segments are read just where the characters have a layout whose bodies all read. -/
theorem parseFrom_eq_ok {source : String} {offset : Nat} {cs : List Char}
    {segments : List Segment} : parseFrom source offset cs = .ok segments ↔
      ∃ l : Layout, l.chars = cs ∧ l.Exact [] ∧ l.ReadsAs segments := by
  constructor
  · induction size : cs.length using Nat.strongRecOn generalizing cs offset segments with
    | ind n ih =>
      intro read
      rcases first_marker cs with plain |
        ⟨before, _, rfl, early, never | ⟨body, rest, rfl, first⟩⟩
      · rw [parseFrom_plain plain] at read
        obtain rfl := Except.ok.inj read
        refine ⟨.plain cs, rfl, ?_, readsAs_plain.mpr rfl⟩
        unfold Exact
        rwa [List.append_nil]
      · rw [parseFrom_unclosed early never] at read
        cases read
      · rw [parseFrom_marker early first] at read
        obtain ⟨e, more, here, others, rfl⟩ := pair_eq_ok.mp read
        have shorter : rest.length < n := by
          rw [← size]
          simp [opening]
          omega
        obtain ⟨l, rfl, exact, reads⟩ := ih rest.length shorter rfl others
        exact ⟨.marker before body l, rfl, ⟨early, first, exact⟩,
          readsAs_marker.mpr ⟨e, more, readBody_eq_ok.mp here, reads, rfl⟩⟩
  · rintro ⟨l, rfl, exact, reads⟩
    induction l generalizing offset segments with
    | plain last =>
      obtain rfl := readsAs_plain.mp reads
      unfold Exact at exact
      rw [List.append_nil] at exact
      exact parseFrom_plain exact
    | marker before body rest ih =>
      obtain ⟨early, first, exact⟩ := exact
      obtain ⟨e, more, here, others, rfl⟩ := readsAs_marker.mp reads
      rw [chars, parseFrom_marker early first]
      exact pair_eq_ok.mpr ⟨e, more, readBody_eq_ok.mpr here, ih exact others, rfl⟩

theorem parseFrom_bad {source : String} {offset : Nat} {before rest : List Char}
    {e : TemplateError} (early : ¬opening <:+: before ++ ['\x7b'])
    (bad : BadMarker source (offset + byteLength before) rest e) :
    parseFrom source offset (before ++ opening ++ rest) = .error e := by
  cases bad with
  | unclosed never => exact parseFrom_unclosed early never
  | empty first blank =>
    rw [parseFrom_marker early first, readBody, if_pos blank]
    rfl
  | invalid first filled fails =>
    rw [parseFrom_marker early first, readBody, if_neg filled, fails]
    rfl

theorem byteLength_marker (before body : List Char) (rest : Layout) :
    byteLength (marker before body rest).chars =
      byteLength (before ++ opening ++ (body ++ closing)) + byteLength rest.chars := by
  simp only [chars, byteLength_append]
  omega

/-- Reading fails just where markers that all read are followed by a bad one. -/
theorem parseFrom_eq_error {source : String} {offset : Nat} {cs : List Char}
    {e : TemplateError} : parseFrom source offset cs = .error e ↔
      ∃ (l : Layout) (rest : List Char), cs = l.chars ++ opening ++ rest ∧ l.Exact ['\x7b'] ∧
        (∀ body ∈ l.bodies, ∃ read, BodyReads body read) ∧
        BadMarker source (offset + byteLength l.chars) rest e := by
  constructor
  · induction size : cs.length using Nat.strongRecOn generalizing cs offset with
    | ind n ih =>
      intro fails
      rcases first_marker cs with plain |
        ⟨before, _, rfl, early, never | ⟨body, rest, rfl, first⟩⟩
      · rw [parseFrom_plain plain] at fails
        cases fails
      · rw [parseFrom_unclosed early never] at fails
        obtain rfl := Except.error.inj fails
        exact ⟨.plain before, _, rfl, early, by simp [bodies], .unclosed never⟩
      · rw [parseFrom_marker early first] at fails
        cases read : readBody source body with
        | error fault =>
          rw [read] at fails
          obtain rfl := Except.error.inj fails
          exact ⟨.plain before, _, rfl, early, by simp [bodies], readBody_eq_error first read⟩
        | ok found =>
          rw [← fault?_eq_some, fault?_pair, read] at fails
          have later := fault?_eq_some.mp fails
          have shorter : rest.length < n := by
            rw [← size]
            simp [opening]
            omega
          obtain ⟨l, tail, rfl, exact, each, bad⟩ := ih rest.length shorter rfl later
          rw [Nat.add_assoc, ← byteLength_marker] at bad
          refine ⟨.marker before body l, tail, ?_, ⟨early, first, exact⟩, ?_, bad⟩
          · simp only [chars, List.append_assoc]
          · exact List.forall_mem_cons.mpr ⟨⟨found, readBody_eq_ok.mp read⟩, each⟩
  · rintro ⟨l, rest, rfl, exact, each, bad⟩
    induction l generalizing offset with
    | plain last => exact parseFrom_bad exact bad
    | marker before body inner ih =>
      obtain ⟨early, first, exact⟩ := exact
      obtain ⟨⟨found, here⟩, each⟩ := List.forall_mem_cons.mp each
      have regroup : (marker before body inner).chars ++ opening ++ rest =
          before ++ opening ++ (body ++ closing ++ (inner.chars ++ opening ++ rest)) := by
        simp only [chars, List.append_assoc]
      rw [byteLength_marker, ← Nat.add_assoc] at bad
      rw [regroup, parseFrom_marker early first, readBody_eq_ok.mpr here, ih exact each bad]
      rfl

/-! Templates. -/

theorem parse_eq_ok {text : String} {t : Template} :
    parse text = .ok t ↔ t.source = text ∧
      ∃ l : Layout, l.chars = text.toList ∧ l.Exact [] ∧ l.ReadsAs t.segments := by
  unfold parse
  rw [map_eq_ok, ← @parseFrom_eq_ok text 0]
  constructor
  · rintro ⟨segments, read, rfl⟩
    exact ⟨rfl, read⟩
  · rintro ⟨rfl, read⟩
    exact ⟨_, read, rfl⟩

theorem parse_eq_error {text : String} {e : TemplateError} :
    parse text = .error e ↔ ∃ (l : Layout) (rest : List Char),
      text.toList = l.chars ++ opening ++ rest ∧ l.Exact ['\x7b'] ∧
        (∀ body ∈ l.bodies, ∃ read, BodyReads body read) ∧
        BadMarker text (byteLength l.chars) rest e := by
  unfold parse
  rw [← fault?_eq_some, fault?_map, fault?_eq_some, parseFrom_eq_error]
  simp only [Nat.zero_add]

theorem parseExpr_error {body : List Char} {e : TemplateError}
    (fails : parseExpr body = .error e) : ∃ path reason, e = .invalidPath path reason := by
  have path : ∀ {text : String}, Path.parse text = .error e →
      ∃ path reason, e = .invalidPath path reason := by
    intro text fails
    simp only [Path.parse] at fails
    split at fails
    · exact ⟨_, _, (Except.error.inj fails).symm⟩
    · split at fails
      · cases fails
      · exact ⟨_, _, (Except.error.inj fails).symm⟩
  unfold parseExpr at fails
  repeat' split at fails
  all_goals first
    | cases fails
    | rw [← fault?_eq_some, fault?_map, fault?_eq_some] at fails
      exact path fails

/-- The position of a marker that is never closed is that of its opening mark. -/
theorem unclosed_position {text source : String} {position : Nat}
    (fails : parse text = .error (.unclosed source position)) : source = text ∧
      ∃ before after, text.toList = before ++ opening ++ after ∧
        (String.ofList before).utf8ByteSize = position ∧ ¬closing <:+: after := by
  obtain ⟨l, rest, whole, _, _, bad⟩ := parse_eq_error.mp fails
  generalize same : TemplateError.unclosed source position = e at bad
  cases bad with
  | unclosed never =>
    obtain ⟨rfl, rfl⟩ := TemplateError.unclosed.inj same
    exact ⟨rfl, l.chars, rest, whole, (byteLength_eq l.chars).symm, never⟩
  | empty first blank => cases same
  | invalid first filled fails =>
    obtain ⟨path, reason, rfl⟩ := parseExpr_error fails
    cases same

/-- A text that is one marker from end to end: its last two characters are the first closing
mark behind the opening one. -/
def IsMarker (text : String) : Prop :=
  ∃ body, text.toList = opening ++ body ++ closing ∧ ¬closing <:+: body ++ ['\x7d']

theorem single?_isSome_iff {text : String} {t : Template} (read : parse text = .ok t) :
    t.single?.isSome = true ↔ IsMarker text := by
  obtain ⟨_, l, whole, exact, reads⟩ := parse_eq_ok.mp read
  rw [reads.single?_isSome_iff, IsMarker, ← whole]
  have marker_chars : ∀ body, (Layout.marker [] body (.plain [])).chars =
      opening ++ body ++ closing := by
    intro body
    simp [Layout.chars]
  constructor
  · rintro ⟨body, rfl⟩
    exact ⟨body, marker_chars body, exact.2.1⟩
  · rintro ⟨body, same, first⟩
    have alone : (Layout.marker [] body (.plain [])).Exact [] := ⟨by decide, first, by decide⟩
    exact ⟨body, exact.unique alone (same.trans (marker_chars body).symm)⟩

/-- How a text is read as a template. -/
structure CutAtMarkers (text : String) : Prop where
  /-- Its segments are the texts around its markers, as far as there are any, and between them
  what the markers read as. -/
  accepted : ∀ t, parse text = .ok t ↔ t.source = text ∧ ∃ l : Layout,
    l.chars = text.toList ∧ l.Exact [] ∧ (∀ cs ∈ l.texts, ¬opening <:+: cs) ∧
      (∀ body ∈ l.bodies, ¬closing <:+: body) ∧ l.ReadsAs t.segments
  /-- It fails at the first marker that is bad. -/
  rejected : ∀ e, parse text = .error e ↔ ∃ (l : Layout) (rest : List Char),
    text.toList = l.chars ++ opening ++ rest ∧ l.Exact ['\x7b'] ∧
      (∀ body ∈ l.bodies, ∃ read, BodyReads body read) ∧
      BadMarker text (String.ofList l.chars).utf8ByteSize rest e
  /-- One that is never closed is reported with the byte it stands at. -/
  unclosed : ∀ source position, parse text = .error (.unclosed source position) →
    source = text ∧ ∃ before after, text.toList = before ++ opening ++ after ∧
      (String.ofList before).utf8ByteSize = position ∧ ¬closing <:+: after
  filled : ∀ t, parse text = .ok t → .text "" ∉ t.segments
  apart : ∀ t, parse text = .ok t →
    t.segments.IsChain fun first second => ¬Layout.BothTexts first second
  literal : ∀ t, parse text = .ok t → (t.isLiteral = true ↔ ¬Marked text)
  single : ∀ t, parse text = .ok t → (t.single?.isSome = true ↔ IsMarker text)
  /-- Only what is one marker resolves to anything but a text. -/
  typed : ∀ t, parse text = .ok t → ∀ (s : Scope) (v : Json), s.resolve t = .ok v →
    (∀ shown, v ≠ .string shown) → IsMarker text
  /-- A second text behind it adds its segments, unless a mark stands across the seam. -/
  append : ∀ t behind u, parse text = .ok t → parse behind = .ok u →
    ¬(text.toList.getLast? = some '\x7b' ∧ behind.toList.head? = some '\x7b') →
      parse (text ++ behind) = .ok ⟨text ++ behind, joinTexts (t.segments ++ u.segments)⟩

theorem text_cut_at_markers (text : String) : CutAtMarkers text where
  accepted t := by
    rw [parse_eq_ok]
    refine and_congr_right fun _ => exists_congr fun l => and_congr_right fun _ => ?_
    exact ⟨fun ⟨exact, reads⟩ => ⟨exact, exact.no_opening, exact.no_closing, reads⟩,
      fun ⟨exact, _, _, reads⟩ => ⟨exact, reads⟩⟩
  rejected e := by
    simp only [← byteLength_eq]
    exact parse_eq_error
  unclosed source position := unclosed_position
  filled t read := by
    obtain ⟨_, l, _, _, reads⟩ := parse_eq_ok.mp read
    exact reads.no_empty
  apart t read := by
    obtain ⟨_, l, _, _, reads⟩ := parse_eq_ok.mp read
    exact reads.apart
  literal t read := by
    obtain ⟨_, l, whole, exact, reads⟩ := parse_eq_ok.mp read
    have told := reads.isLiteral_iff exact
    rwa [whole] at told
  single t read := single?_isSome_iff read
  typed t read s v resolved other := by
    apply (single?_isSome_iff read).mp
    unfold Scope.resolve at resolved
    cases only : t.single? with
    | some e => rfl
    | none =>
      rw [only] at resolved
      obtain ⟨shown, _, same⟩ := map_eq_ok.mp resolved
      exact absurd same.symm (other shown)
  append t behind u read follows seam := by
    obtain ⟨_, l, first, exact, reads⟩ := parse_eq_ok.mp read
    obtain ⟨_, m, second, exact', reads'⟩ := parse_eq_ok.mp follows
    rw [← first, ← second] at seam
    refine parse_eq_ok.mpr ⟨rfl, l.append m, ?_, exact.append exact' seam, reads.append reads'⟩
    rw [Layout.chars_append, first, second, String.toList_append]

/-- The path of a zone, with two markers. -/
def zoneText : String := "projects/\x7b\x7b account \x7d\x7d/zones/\x7b\x7bregion\x7d\x7d"

def zoneTemplate : Template :=
  ⟨zoneText, [.text "projects/", .expr (.path ⟨"account", [.key "account"]⟩), .text "/zones/",
    .expr (.path ⟨"region", [.key "region"]⟩)]⟩

def zoneLayout : Layout :=
  .marker "projects/".toList " account ".toList (.marker "/zones/".toList "region".toList (.plain []))

/-- A zone is read marker by marker. A marker that is never closed is found at its byte, and the
letter in front of this one takes two. -/
theorem zone_cut_at_markers :
    CutAtMarkers zoneText ∧ parse zoneText = .ok zoneTemplate ∧
      CutAtMarkers "é \x7b\x7b account" ∧
      parse "é \x7b\x7b account" = .error (.unclosed "é \x7b\x7b account" 3) := by
  have zone := text_cut_at_markers zoneText
  have accent := text_cut_at_markers "é \x7b\x7b account"
  have account : BodyReads " account ".toList (.path ⟨"account", [.key "account"]⟩) :=
    ⟨by decide, rfl⟩
  have region : BodyReads "region".toList (.path ⟨"region", [.key "region"]⟩) := ⟨by decide, rfl⟩
  refine ⟨zone, (zone.accepted _).mpr ⟨rfl, zoneLayout, by decide, by decide, by decide, by decide,
    [_, _], .cons account (.cons region .nil), rfl⟩, accent, (accent.rejected _).mpr
      ⟨.plain "é ".toList, " account".toList, by decide, by decide, by simp [bodies], ?_⟩⟩
  exact .unclosed (by decide)

end Template

end CloudAudit
