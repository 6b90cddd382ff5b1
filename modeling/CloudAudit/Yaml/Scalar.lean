import CloudAudit.Yaml.Cursor

/-!
Texts of YAML scalars: plain, quoted and block. Line breaks inside plain and quoted scalars fold
into blanks.
-/

namespace CloudAudit.Yaml

/-- Blanks and breaks between two pieces of a scalar. -/
structure Gap where
  /-- Blanks before the first break. -/
  blanks : List Char := []
  /-- The first break. -/
  first : List Char := []
  /-- The breaks after it. -/
  more : List Char := []
  /-- Whether a line ended. -/
  broken : Bool := false

namespace Gap

/-- What a gap stands for: a single break folds into a blank, further ones stay. -/
def text (g : Gap) : List Char :=
  if g.broken then
    if g.first = ['\n'] then (if g.more = [] then [' '] else g.more) else g.first ++ g.more
  else g.blanks

/--
Reads a gap. On a later line, a tab left of `indent` is a defect. The fuel is the number of
characters left.
-/
def read (indent : Nat) : Nat → Gap → Cursor → Option (Gap × Cursor)
  | 0, g, c => some (g, c)
  | fuel + 1, g, c =>
    match c.ahead? 0 with
    | none => some (g, c)
    | some x =>
      if isBlank x then
        if g.broken then
          if x = '\t' ∧ c.column < indent then none else read indent fuel g (c.skip 1)
        else read indent fuel { g with blanks := g.blanks ++ [x] } (c.skip 1)
      else if isBreak x then
        if g.broken then read indent fuel { g with more := g.more ++ c.breakText } c.skipBreak
        else read indent fuel { g with blanks := [], first := c.breakText, broken := true } c.skipBreak
      else some (g, c)

end Gap

/-- Text of a scalar as written. -/
structure ScalarText where
  text : List Char
  cursor : Cursor
  /-- Whether the scalar ended on a new line. -/
  onNewLine : Bool := false

namespace Plain

def isFlowIndicator (c : Char) : Bool := c = ',' || c = '[' || c = ']' || c = '\x7b' || c = '\x7d'

/-- Characters up to a gap or an indicator; none when a colon touches a flow indicator. -/
def run? (flow : Bool) : List Char → Option (List Char)
  | [] => some []
  | x :: rest =>
    if isGap x then some []
    else if flow && x = ':' && rest.head?.any (fun y => isFlowIndicator y || y = '?') then none
    else if x = ':' && rest.head?.all isGap then some []
    else if flow && isFlowIndicator x then some []
    else (run? flow rest).map (x :: ·)

/-- Runs and the gaps between them, up to where the scalar ends. -/
def read (flow : Bool) (indent : Nat) : Nat → Gap → List Char → Cursor → Option ScalarText
  | 0, gap, text, c => some ⟨text, c, gap.broken⟩
  | fuel + 1, gap, text, c =>
    if c.seesDocumentMarker || c.seesChar 0 '#' then some ⟨text, c, gap.broken⟩
    else do
      let run ← run? flow c.rest
      let text := if run.isEmpty then text else text ++ gap.text ++ run
      let broken := run.isEmpty && gap.broken
      let c := c.skip run.length
      if !c.sees 0 isGap then pure ⟨text, c, broken⟩
      else
        let (gap, c) ← Gap.read indent c.rest.length {} c
        if !flow && c.column < indent then pure ⟨text, c, gap.broken⟩
        else read flow indent fuel gap text c

end Plain

/-- Reads a plain scalar of a block at `indent`. -/
def plainScalar? (flow : Bool) (indent : Nat) (c : Cursor) : Option ScalarText :=
  Plain.read flow indent (c.rest.length + 1) {} [] c

namespace Quoted

/-- Characters named by one letter after a backslash. -/
def escapes : List (Char × Nat) :=
  [('0', 0x00), ('a', 0x07), ('b', 0x08), ('t', 0x09), ('\t', 0x09), ('n', 0x0a), ('v', 0x0b),
   ('f', 0x0c), ('r', 0x0d), ('e', 0x1b), (' ', 0x20), ('"', 0x22), ('/', 0x2f), ('\\', 0x5c),
   ('N', 0x85), ('_', 0xa0), ('L', 0x2028), ('P', 0x2029)]

/-- How many hexadecimal digits follow a letter. -/
def codeLength? (c : Char) : Option Nat :=
  if c = 'x' then some 2 else if c = 'u' then some 4 else if c = 'U' then some 8 else none

/-- A character by its code; surrogates and codes beyond the last are none. -/
def codeChar? (digits : List Char) (count : Nat) : Option Char := do
  let values ← digits.mapM hexValue?
  if values.length < count then none
  else
    let n := values.foldl (fun n d => 16 * n + d) 0
    if (0xd800 ≤ n ∧ n ≤ 0xdfff) ∨ 0x10ffff < n then none else some (Char.ofNat n)

/--
Characters up to a gap or the closing quote, with escapes read. The flag tells that an escaped
line break ended the run.
-/
def run (double : Bool) : Nat → List Char → Cursor → Option (List Char × Bool × Cursor)
  | 0, _, _ => none
  | fuel + 1, text, c =>
    match c.rest with
    | [] => some (text, false, c)
    | x :: _ =>
      if isGap x then some (text, false, c)
      else if !double && x = '\'' && c.seesChar 1 '\'' then
        run double fuel (text ++ ['\'']) (c.skip 2)
      else if x = (if double then '"' else '\'') then some (text, false, c)
      else if double && x = '\\' then
        match c.ahead? 1 with
        | none => none
        | some e =>
          if isBreak e then some (text, true, (c.skip 1).skipBreak)
          else match codeLength? e with
            | some count => do
              let y ← codeChar? ((c.rest.drop 2).take count) count
              run double fuel (text ++ [y]) (c.skip (2 + count))
            | none => do
              let code ← escapes.lookup e
              run double fuel (text ++ [Char.ofNat code]) (c.skip 2)
      else run double fuel (text ++ [x]) (c.skip 1)

/-- Runs and gaps up to the closing quote. -/
def read (double : Bool) : Nat → List Char → Cursor → Option ScalarText
  | 0, _, _ => none
  | fuel + 1, text, c =>
    if c.seesDocumentMarker || c.isAtEnd then none
    else do
      let (text, escaped, c) ← run double (c.rest.length + 1) text c
      if c.seesChar 0 (if double then '"' else '\'') && !escaped then pure ⟨text, c.skip 1, false⟩
      else if escaped && c.seesChar 0 '"' then pure ⟨text, c.skip 1, false⟩
      else
        let (gap, c) ← Gap.read 0 c.rest.length { broken := escaped } c
        read double fuel (text ++ gap.text) c

end Quoted

/-- Reads a quoted scalar from its opening quote. -/
def quotedScalar? (double : Bool) (c : Cursor) : Option ScalarText :=
  Quoted.read double (c.rest.length + 1) [] (c.skip 1)

namespace Block

/-- What becomes of the breaks at the end of a block scalar. -/
inductive Chomping where
  | strip
  | clip
  | keep
  deriving DecidableEq

def chomping? (c : Cursor) : Option Chomping :=
  if c.seesChar 0 '+' then some .keep else if c.seesChar 0 '-' then some .strip else none

/-- An indentation digit; zero is a defect. -/
def increment? (c : Cursor) : Option (Option Nat × Cursor) :=
  match c.ahead? 0 with
  | some x =>
    if x = '0' then none
    else if '1' ≤ x ∧ x ≤ '9' then some (some (x.toNat - '0'.toNat), c.skip 1)
    else some (none, c)
  | none => some (none, c)

/-- Chomping and indentation in either order. -/
def header? (c : Cursor) : Option (Chomping × Option Nat × Cursor) :=
  match chomping? c with
  | some chomping => do
    let (increment, c) ← increment? (c.skip 1)
    pure (chomping, increment, c)
  | none => do
    let (increment, c) ← increment? c
    match increment, chomping? c with
    | some n, some chomping => pure (chomping, some n, c.skip 1)
    | _, _ => pure (.clip, increment, c)

/-- Indentation blanks of a line, at most up to a known indentation. -/
def indentation (indent : Option Nat) (c : Cursor) : Nat :=
  let blanks := (c.takeWhile (· = ' ')).length
  match indent with
  | none => blanks
  | some n => min blanks (n - c.column)

/-- Empty lines before content; gives their breaks and the greatest column reached. -/
def emptyLines (indent : Option Nat) :
    Nat → Nat → List Char → Cursor → Option (Nat × List Char × Cursor)
  | 0, _, _, _ => none
  | fuel + 1, widest, breaks, c =>
    let c := c.skip (indentation indent c)
    let widest := max widest c.column
    if indent.all (c.column < ·) && c.seesChar 0 '\t' then none
    else if c.sees 0 isBreak then
      emptyLines indent fuel widest (breaks ++ c.breakText) c.skipBreak
    else some (widest, breaks, c)

/-- State between the lines of a block scalar. -/
structure Lines where
  text : List Char := []
  /-- Break that ended the line before. -/
  first : List Char := []
  /-- Breaks of empty lines after it. -/
  more : List Char := []
  /-- Whether the line before starts with a blank. -/
  leadingBlank : Bool := false

/-- Lines at `indent`; a folded break between two lines that start with text is a blank. -/
def lines (literal : Bool) (indent : Nat) : Nat → Lines → Cursor → Option (Lines × Cursor)
  | 0, _, _ => none
  | fuel + 1, s, c =>
    if c.column ≠ indent || c.isAtEnd then some (s, c)
    else do
      let blank := c.sees 0 isBlank
      let joint :=
        if !literal && s.first = ['\n'] && !s.leadingBlank && !blank then
          (if s.more = [] then [' '] else [])
        else s.first
      let line := c.takeWhile (!isBreak ·)
      let c := c.skip line.length
      let first := c.breakText
      let (_, more, c) ← emptyLines (some indent) (c.rest.length + 1) 0 [] c.skipBreak
      lines literal indent fuel
        { text := s.text ++ joint ++ s.more ++ line, first, more, leadingBlank := blank } c

end Block

/-- Reads a block scalar from its indicator; `parent` is the indentation around it, if any. -/
def blockScalar? (literal : Bool) (parent : Int) (c : Cursor) : Option ScalarText := do
  let (chomping, increment, c) ← Block.header? (c.skip 1)
  let c ← c.finishLine?
  let base := (max parent 0).toNat
  let known := increment.map (base + ·)
  let (widest, breaks, c) ← Block.emptyLines known (c.rest.length + 1) 0 [] c
  let indent := known.getD (max (max widest (parent + 1).toNat) 1)
  let (s, c) ← Block.lines literal indent (c.rest.length + 1) { more := breaks } c
  let ending := match chomping with
    | .strip => []
    | .clip => s.first
    | .keep => s.first ++ s.more
  pure ⟨s.text ++ ending, c, true⟩

end CloudAudit.Yaml
