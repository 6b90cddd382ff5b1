import CloudAudit.Proofs.BindingJson
import CloudAudit.Proofs.IntegerText

set_option autoImplicit false

/- Paths as texts. Each piece between dots stands for a step, for a step and a `[]`, or for a `[]`
alone. Different texts may stand for the same steps; the steps written out are one of them. -/
namespace CloudAudit.Path

/-- A name in a path. -/
structure IsName (cs : List Char) : Prop where
  filled : cs ≠ []
  chars : ∀ c ∈ cs, Text.isBlank c = false ∧ c ≠ '[' ∧ c ≠ ']'

/-- A number that is a position in a list. -/
def IsPosition (cs : List Char) : Prop :=
  (∀ c ∈ cs, '0' ≤ c ∧ c ≤ '9') ∧ Number.ofDigits cs ≤ maxIndex

/-- The step that a name stands for. -/
inductive StandsFor : List Char → Step → Prop
  | index {cs : List Char} (position : IsPosition cs) : StandsFor cs (.index (Number.ofDigits cs))
  | key {cs : List Char} (other : ¬IsPosition cs) : StandsFor cs (.key (String.ofList cs))

/-- A piece between dots, and its steps. -/
inductive Piece : List Char → List Step → Prop
  | name {cs : List Char} {step : Step} (name : IsName cs) (stands : StandsFor cs step) :
      Piece cs [step]
  | flattened {cs : List Char} {step : Step} (name : IsName cs) (stands : StandsFor cs step) :
      Piece (cs ++ ['[', ']']) [step, .flatten]
  | flatten : Piece ['[', ']'] [.flatten]

/-! Names and pieces. -/

theorem isNameChar_iff {c : Char} :
    isNameChar c = true ↔ Text.isBlank c = false ∧ c ≠ '[' ∧ c ≠ ']' := by
  simp only [isNameChar, Bool.and_eq_true, Bool.not_eq_true', decide_eq_true_eq, and_assoc]

theorem isName_iff {cs : List Char} : IsName cs ↔ cs ≠ [] ∧ cs.all isNameChar = true := by
  simp only [List.all_eq_true, isNameChar_iff]
  exact ⟨fun name => ⟨name.filled, name.chars⟩, fun ⟨filled, chars⟩ => ⟨filled, chars⟩⟩

theorem isPosition_iff {cs : List Char} :
    IsPosition cs ↔ cs.all Number.isDigit = true ∧ Number.ofDigits cs ≤ maxIndex := by
  simp only [IsPosition, List.all_eq_true, Number.isDigit, Bool.and_eq_true, decide_eq_true_eq]

theorem nameStep_index {cs : List Char} (filled : cs ≠ []) (position : IsPosition cs) :
    nameStep cs = .index (Number.ofDigits cs) := by
  obtain ⟨digits, fits⟩ := isPosition_iff.mp position
  rw [nameStep_digits filled digits, if_pos fits]

theorem nameStep_key {cs : List Char} (filled : cs ≠ []) (other : ¬IsPosition cs) :
    nameStep cs = .key (String.ofList cs) := by
  by_cases digits : cs.all Number.isDigit = true
  · have large : ¬Number.ofDigits cs ≤ maxIndex := fun fits =>
      other (isPosition_iff.mpr ⟨digits, fits⟩)
    rw [nameStep_digits filled digits, if_neg large]
  · rw [nameStep, Number.natural?, if_neg fun both => digits both.2]

theorem standsFor_iff {cs : List Char} (filled : cs ≠ []) {step : Step} :
    StandsFor cs step ↔ step = nameStep cs := by
  constructor
  · intro stands
    cases stands with
    | index position => exact (nameStep_index filled position).symm
    | key other => exact (nameStep_key filled other).symm
  · rintro rfl
    by_cases position : IsPosition cs
    · rw [nameStep_index filled position]
      exact .index position
    · rw [nameStep_key filled position]
      exact .key position

theorem segmentSteps_marked {cs : List Char} : segmentSteps (cs ++ ['[', ']']) =
    if cs.all isNameChar then .ok (if cs = [] then [.flatten] else [nameStep cs, .flatten])
    else .error (.invalid (String.ofList (cs ++ ['[', ']']))) := by
  have marked : Text.beforeSuffix? ['[', ']'] (cs ++ ['[', ']']) = some cs :=
    Text.beforeSuffix?_eq_some_iff.mpr rfl
  cases named : cs.all isNameChar <;> simp [segmentSteps, marked, named]

theorem segmentSteps_bare {cs : List Char} (bare : ∀ front, cs ≠ front ++ ['[', ']']) :
    segmentSteps cs = if cs = [] then .error .empty
      else if cs.all isNameChar then .ok [nameStep cs]
      else .error (.invalid (String.ofList cs)) := by
  have unmarked : Text.beforeSuffix? ['[', ']'] cs = none := by
    rw [Option.eq_none_iff_forall_ne_some]
    exact fun front same => bare front (Text.beforeSuffix?_eq_some_iff.mp same)
  simp only [segmentSteps, unmarked]
  by_cases empty : cs = []
  · simp only [empty, and_self, ↓reduceIte]
  · cases named : cs.all isNameChar <;> simp [empty]

theorem IsName.bare {cs : List Char} (name : IsName cs) (front : List Char) :
    cs ≠ front ++ ['[', ']'] := by
  rintro rfl
  exact (name.chars '[' (by simp)).2.1 rfl

theorem Piece.read {cs : List Char} {steps : List Step} (piece : Piece cs steps) :
    segmentSteps cs = .ok steps := by
  cases piece with
  | name name stands =>
    obtain ⟨filled, chars⟩ := isName_iff.mp name
    rw [segmentSteps_bare name.bare, if_neg filled, if_pos chars, (standsFor_iff filled).mp stands]
  | flattened name stands =>
    obtain ⟨filled, chars⟩ := isName_iff.mp name
    rw [segmentSteps_marked, if_pos chars, if_neg filled, (standsFor_iff filled).mp stands]
  | flatten => rfl

theorem piece_of_segmentSteps {cs : List Char} {steps : List Step}
    (read : segmentSteps cs = .ok steps) : Piece cs steps := by
  by_cases marked : ∃ front, cs = front ++ ['[', ']']
  · obtain ⟨front, rfl⟩ := marked
    rw [segmentSteps_marked] at read
    by_cases chars : front.all isNameChar = true
    · rw [if_pos chars] at read
      obtain rfl := Except.ok.inj read
      by_cases empty : front = []
      · rw [if_pos empty, empty]
        exact .flatten
      · rw [if_neg empty]
        exact .flattened (isName_iff.mpr ⟨empty, chars⟩) ((standsFor_iff empty).mpr rfl)
    · rw [if_neg chars] at read
      cases read
  · rw [segmentSteps_bare fun front same => marked ⟨front, same⟩] at read
    by_cases empty : cs = []
    · rw [if_pos empty] at read
      cases read
    · rw [if_neg empty] at read
      by_cases chars : cs.all isNameChar = true
      · rw [if_pos chars] at read
        obtain rfl := Except.ok.inj read
        exact .name (isName_iff.mpr ⟨empty, chars⟩) ((standsFor_iff empty).mpr rfl)
      · rw [if_neg chars] at read
        cases read

theorem segmentSteps_eq_ok {cs : List Char} {steps : List Step} :
    segmentSteps cs = .ok steps ↔ Piece cs steps :=
  ⟨piece_of_segmentSteps, Piece.read⟩

theorem segments_eq_splitOn (cs : List Char) : segments cs = cs.splitOn '.' := by
  induction cs with
  | nil => rfl
  | cons c rest ih =>
    rw [segments, ih, List.splitOn_cons_eq_if_modifyHead]
    simp only [beq_iff_eq]
    cases split : rest.splitOn '.' with
    | nil => exact absurd split (List.splitOn_ne_nil '.' rest)
    | cons piece pieces => rfl

theorem stepsOf_eq_ok {pieces : List (List Char)} {steps : List Step} :
    stepsOf pieces = .ok steps ↔
      ∃ parts, List.Forall₂ Piece pieces parts ∧ steps = parts.flatten := by
  induction pieces generalizing steps with
  | nil =>
    constructor
    · intro read
      obtain rfl := Except.ok.inj read
      exact ⟨[], .nil, rfl⟩
    · rintro ⟨parts, each, rfl⟩
      obtain rfl := List.forall₂_nil_left_iff.mp each
      rfl
  | cons cs rest ih =>
    rw [stepsOf, pair_eq_ok]
    constructor
    · rintro ⟨own, more, here, later, rfl⟩
      obtain ⟨parts, each, rfl⟩ := ih.mp later
      exact ⟨own :: parts, .cons (segmentSteps_eq_ok.mp here) each, rfl⟩
    · rintro ⟨parts, each, rfl⟩
      obtain ⟨own, others, piece, later, rfl⟩ := List.forall₂_cons_left_iff.mp each
      exact ⟨own, others.flatten, segmentSteps_eq_ok.mpr piece, ih.mpr ⟨others, later, rfl⟩, rfl⟩

/-! Texts, piece by piece. -/

theorem segments_dotless {cs : List Char} (dotless : '.' ∉ cs) : segments cs = [cs] := by
  induction cs with
  | nil => rfl
  | cons c rest ih =>
    obtain ⟨other, dotless⟩ := not_or.mp (List.mem_cons.not.mp dotless)
    rw [segments, if_neg (Ne.symm other), ih dotless]

/-- What holds of a text without dots, and of one that starts with a piece and a dot if it holds
of the rest, holds of every text and its pieces. -/
theorem segments_induction {motive : List Char → List (List Char) → Prop}
    (whole : ∀ cs, '.' ∉ cs → motive cs [cs])
    (cut : ∀ piece rest, '.' ∉ piece → motive rest (segments rest) →
      motive (piece ++ '.' :: rest) (piece :: segments rest)) (cs : List Char) :
    motive cs (segments cs) := by
  by_cases dotted : '.' ∈ cs
  · obtain ⟨piece, rest, split, dotless⟩ := List.eq_append_cons_of_mem dotted
    have shorter : rest.length < cs.length := by
      rw [split, List.length_append, List.length_cons]
      omega
    rw [split, segments_append dotless]
    exact cut piece rest dotless (segments_induction whole cut rest)
  · rw [segments_dotless dotted]
    exact whole cs dotted
termination_by cs.length

theorem dotless_of_mem_segments {cs piece : List Char} (member : piece ∈ segments cs) :
    '.' ∉ piece := by
  have all : ∀ own ∈ segments cs, '.' ∉ own := by
    refine segments_induction (motive := fun _ pieces => ∀ own ∈ pieces, '.' ∉ own) ?_ ?_ cs
    · intro cs dotless own same
      rwa [List.mem_singleton.mp same]
    · intro piece rest dotless ih
      exact List.forall_mem_cons.mpr ⟨dotless, ih⟩
  exact all piece member

theorem mem_segments {cs : List Char} : ∀ c ∈ cs, c = '.' ∨ ∃ piece ∈ segments cs, c ∈ piece := by
  refine segments_induction
    (motive := fun cs pieces => ∀ c ∈ cs, c = '.' ∨ ∃ piece ∈ pieces, c ∈ piece) ?_ ?_ cs
  · intro cs _ c member
    exact .inr ⟨cs, List.mem_singleton_self cs, member⟩
  · intro piece rest _ ih c member
    rcases List.mem_append.mp member with own | later
    · exact .inr ⟨piece, List.mem_cons_self, own⟩
    · rcases List.mem_cons.mp later with dot | later
      · exact .inl dot
      · exact (ih c later).imp_right fun ⟨other, inside, found⟩ =>
          ⟨other, List.mem_cons_of_mem _ inside, found⟩

theorem bracket_shown : ∀ c ∈ ['[', ']'], Text.isBlank c = false :=
  List.forall_mem_cons.mpr ⟨by decide, List.forall_mem_singleton.mpr (by decide)⟩

theorem Piece.shown {cs : List Char} {steps : List Step} (piece : Piece cs steps) :
    ∀ c ∈ cs, Text.isBlank c = false := by
  cases piece with
  | name name => exact fun c member => (name.chars c member).1
  | flattened name =>
    intro c member
    exact (List.mem_append.mp member).elim (fun own => (name.chars c own).1) (bracket_shown c)
  | flatten => exact bracket_shown

/-- Text that is read as steps without being trimmed is trimmed. -/
theorem trim_of_read {cs : List Char} {steps : List Step}
    (read : stepsOf (segments cs) = .ok steps) : Text.trim cs = cs := by
  obtain ⟨parts, each, _⟩ := stepsOf_eq_ok.mp read
  have shown : ∀ c ∈ cs, Text.isBlank c = false := by
    intro c member
    rcases mem_segments c member with rfl | ⟨piece, inside, own⟩
    · decide
    · obtain ⟨part, is⟩ := exists_forall₂.mp ⟨parts, each⟩ piece inside
      exact is.shown c own
  exact Text.trim_eq_self (fun c first => shown c (List.mem_of_head? first))
    fun c last => shown c (List.mem_of_getLast? last)

theorem parse_of_read {text : String} {steps : List Step}
    (read : stepsOf (segments text.toList) = .ok steps) : parse text = .ok ⟨text, steps⟩ := by
  have trimmed := trim_of_read read
  refine parse_eq_ok.mpr ⟨?_, ?_, ?_⟩
  · rw [trimmed]
    intro empty
    rw [empty] at read
    cases read
  · rw [trimmed, String.ofList_toList]
  · rw [trimmed, read]

/-! Steps written out. -/

/-- A step whose own text is a name of it. -/
structure Nameable (step : Step) : Prop where
  name : IsName (nameText step).toList
  dotless : '.' ∉ (nameText step).toList
  stands : StandsFor (nameText step).toList step

theorem nameable_index {n : Nat} (fits : n ≤ maxIndex) : Nameable (.index n) := by
  have written : (nameText (.index n)).toList = Nat.toDigits 10 n := Nat.toList_repr
  have digits : (Nat.toDigits 10 n).all Number.isDigit = true :=
    List.all_eq_true.mpr fun _ => Number.isDigit_toDigits
  have value := Number.ofDigits_toDigits n
  refine ⟨?_, ?_, ?_⟩ <;> rw [written]
  · exact isName_iff.mpr ⟨Nat.toDigits_ne_nil, List.all_eq_true.mpr fun _ member =>
      isNameChar_digit (Number.isDigit_toDigits member)⟩
  · intro dot
    exact absurd (Number.isDigit_toDigits dot) (by decide)
  · have position : IsPosition (Nat.toDigits 10 n) :=
      isPosition_iff.mpr ⟨digits, by rwa [value]⟩
    simpa only [value] using StandsFor.index position

theorem nameable_of_standsFor {cs : List Char} {step : Step} (name : IsName cs)
    (dotless : '.' ∉ cs) (stands : StandsFor cs step) : Nameable step := by
  cases stands with
  | index position => exact nameable_index position.2
  | key other =>
    have written : (nameText (.key (String.ofList cs))).toList = cs := String.toList_ofList
    refine ⟨?_, ?_, ?_⟩ <;> rw [written]
    · exact name
    · exact dotless
    · exact .key other

theorem Piece.nameable {cs : List Char} {steps : List Step} (piece : Piece cs steps)
    (dotless : '.' ∉ cs) : ∀ step ∈ steps, step = .flatten ∨ Nameable step := by
  cases piece with
  | name name stands =>
    intro step member
    obtain rfl := List.mem_singleton.mp member
    exact .inr (nameable_of_standsFor name dotless stands)
  | flattened name stands =>
    intro step member
    rcases List.mem_cons.mp member with rfl | mark
    · have plain := fun dot => dotless (List.mem_append_left _ dot)
      exact .inr (nameable_of_standsFor name plain stands)
    · exact .inl (List.mem_singleton.mp mark)
  | flatten =>
    intro step member
    exact .inl (List.mem_singleton.mp member)

theorem nameable_of_read {cs : List Char} {steps : List Step}
    (read : stepsOf (segments cs) = .ok steps) :
    ∀ step ∈ steps, step = .flatten ∨ Nameable step := by
  obtain ⟨parts, each, rfl⟩ := stepsOf_eq_ok.mp read
  intro step member
  obtain ⟨part, inside, own⟩ := List.mem_flatten.mp member
  obtain ⟨piece, given, is⟩ := exists_of_forall₂ each inside
  exact is.nameable (dotless_of_mem_segments given) step own

theorem stepsOf_last {cs : List Char} {steps : List Step} (dotless : '.' ∉ cs)
    (piece : Piece cs steps) : stepsOf (segments cs) = .ok steps := by
  rw [segments_dotless dotless, stepsOf, piece.read, stepsOf]
  exact congrArg Except.ok (List.append_nil steps)

theorem stepsOf_cut {cs rest : List Char} {own more : List Step} (dotless : '.' ∉ cs)
    (piece : Piece cs own) (later : stepsOf (segments rest) = .ok more) :
    stepsOf (segments (cs ++ '.' :: rest)) = .ok (own ++ more) := by
  rw [segments_append dotless, stepsOf, piece.read, later]
  rfl

theorem Nameable.piece {step : Step} (nameable : Nameable step) :
    Piece (nameText step).toList [step] :=
  .name nameable.name nameable.stands

theorem Nameable.marked {step : Step} (nameable : Nameable step) :
    Piece ((nameText step).toList ++ ['[', ']']) [step, .flatten] :=
  .flattened nameable.name nameable.stands

theorem Nameable.marked_dotless {step : Step} (nameable : Nameable step) :
    '.' ∉ (nameText step).toList ++ ['[', ']'] := by
  simp [nameable.dotless]

/-- Steps that are written out are read again. -/
theorem read_renderSteps {steps : List Step} (filled : steps ≠ [])
    (nameable : ∀ step ∈ steps, step = .flatten ∨ Nameable step) :
    stepsOf (segments (renderSteps steps).toList) = .ok steps := by
  fun_induction renderSteps steps with
  | case1 => exact absurd rfl filled
  | case2 s =>
    rcases nameable s List.mem_cons_self with rfl | own
    · exact stepsOf_last (by decide) .flatten
    · exact stepsOf_last own.dotless own.piece
  | case3 rest more ih =>
    obtain ⟨_, others⟩ := List.forall_mem_cons.mp nameable
    rw [String.toList_append]
    exact stepsOf_cut (by decide) .flatten (ih more others)
  | case4 s other =>
    have own := (nameable s List.mem_cons_self).resolve_left other
    rw [String.toList_append]
    exact stepsOf_last own.marked_dotless own.marked
  | case5 s rest other more ih =>
    obtain ⟨first, tail⟩ := List.forall_mem_cons.mp nameable
    obtain ⟨_, others⟩ := List.forall_mem_cons.mp tail
    have own := first.resolve_left other
    have read := stepsOf_cut own.marked_dotless own.marked (ih more others)
    rw [String.toList_append, String.toList_append]
    simpa using read
  | case6 s rest more other _ _ ih =>
    obtain ⟨first, others⟩ := List.forall_mem_cons.mp nameable
    have own := first.resolve_left other
    have read := stepsOf_cut own.dotless own.piece (ih more others)
    rw [String.toList_append, String.toList_append]
    simpa using read

/-! Whole texts. -/

/-- Text between dots that stands for steps. -/
def IsPiece (cs : List Char) : Prop :=
  IsName cs ∨ (∃ name, IsName name ∧ cs = name ++ ['[', ']']) ∨ cs = ['[', ']']

theorem isPiece_iff {cs : List Char} : IsPiece cs ↔ ∃ steps, Piece cs steps := by
  constructor
  · rintro (name | ⟨front, name, rfl⟩ | rfl)
    · exact ⟨_, .name name ((standsFor_iff name.filled).mpr rfl)⟩
    · exact ⟨_, .flattened name ((standsFor_iff name.filled).mpr rfl)⟩
    · exact ⟨_, .flatten⟩
  · rintro ⟨_, piece⟩
    cases piece with
    | name name => exact .inl name
    | flattened name => exact .inr (.inl ⟨_, name, rfl⟩)
    | flatten => exact .inr (.inr rfl)

theorem Piece.filled {cs : List Char} {steps : List Step} (piece : Piece cs steps) :
    steps ≠ [] := by
  cases piece <;> exact List.cons_ne_nil _ _

theorem steps_ne_nil {cs : List Char} {steps : List Step}
    (read : stepsOf (segments cs) = .ok steps) : steps ≠ [] := by
  obtain ⟨parts, each, rfl⟩ := stepsOf_eq_ok.mp read
  obtain ⟨first, others, split⟩ := List.exists_cons_of_ne_nil (List.splitOn_ne_nil '.' cs)
  rw [segments_eq_splitOn, split] at each
  cases each with
  | cons piece _ => exact List.append_ne_nil_of_left_ne_nil piece.filled _

/-- What the steps of a path have to do with the text they were read from. -/
structure StepsOfText (text : String) (steps : List Step) : Prop where
  filled : steps ≠ []
  /-- The pieces between dots stand for the steps, in order. -/
  pieces : ∃ parts, List.Forall₂ Piece ((Text.trim text.toList).splitOn '.') parts ∧
    steps = parts.flatten
  /-- The steps written out stand for the same steps. -/
  back : parse (renderSteps steps) = .ok ⟨renderSteps steps, steps⟩

/-- A text is a path exactly if something is left of it without the blanks around it and each
piece between dots is a name, a name with a `[]`, or a `[]`. -/
theorem texts_read_as_steps (text : String) :
    ((∃ p, parse text = .ok p) ↔ Text.trim text.toList ≠ [] ∧
      ∀ piece ∈ (Text.trim text.toList).splitOn '.', IsPiece piece) ∧
    ∀ p, parse text = .ok p → p.text = String.ofList (Text.trim text.toList) ∧
      StepsOfText text p.steps := by
  refine ⟨?_, fun p read => ?_⟩
  · simp only [isPiece_iff, ← exists_forall₂, ← segments_eq_splitOn]
    constructor
    · rintro ⟨p, read⟩
      obtain ⟨filled, _, read⟩ := parse_eq_ok.mp read
      obtain ⟨parts, each, _⟩ := stepsOf_eq_ok.mp read
      exact ⟨filled, parts, each⟩
    · rintro ⟨filled, parts, each⟩
      have read := stepsOf_eq_ok.mpr ⟨parts, each, rfl⟩
      exact ⟨⟨_, parts.flatten⟩, parse_eq_ok.mpr ⟨filled, rfl, read⟩⟩
  · obtain ⟨filled, shown, read⟩ := parse_eq_ok.mp read
    refine ⟨shown, steps_ne_nil read, ?_, ?_⟩
    · rw [← segments_eq_splitOn]
      exact stepsOf_eq_ok.mp read
    · exact parse_of_read (read_renderSteps (steps_ne_nil read) (nameable_of_read read))

/-- Blanks around a text and zeros in front of a position are lost, and a number that is too large
for one is a key. -/
theorem sample_read : ∃ p,
    parse " hosts[].[].007.18446744073709551616[]\n" = .ok p ∧
    StepsOfText " hosts[].[].007.18446744073709551616[]\n" p.steps ∧
    p.steps = [.key "hosts", .flatten, .flatten, .index 7, .key "18446744073709551616", .flatten] ∧
    renderSteps p.steps = "hosts[].[].7.18446744073709551616[]" := by
  have read : parse " hosts[].[].007.18446744073709551616[]\n" =
      .ok ⟨"hosts[].[].007.18446744073709551616[]", [.key "hosts", .flatten, .flatten, .index 7,
        .key "18446744073709551616", .flatten]⟩ := by decide +kernel
  exact ⟨_, read, ((texts_read_as_steps _).2 _ read).2, rfl, by decide +kernel⟩

end CloudAudit.Path
