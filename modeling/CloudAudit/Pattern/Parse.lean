import CloudAudit.Pattern.Bracket

/-!
Reading regular expressions from text.
-/

namespace CloudAudit.Pattern

-- Powers are core's, also where an algebra library is imported.
attribute [local instance (high)] instPowNat

/-- A piece of a sequence, with how deep it nests. Flags are pieces that cannot be repeated. -/
structure Piece where
  regex : Regex
  depth : Nat := 0
  repeatable : Bool := true

/-- What is read of a group: the pieces of the current alternative (latest first) and the
alternatives before it (latest first). -/
structure Level where
  pieces : List Piece := []
  alternatives : List Piece := []

namespace Level

/-- Pieces in order as one piece. -/
def sequence (pieces : List Piece) : Piece :=
  match pieces with
  | [p] => { p with repeatable := true }
  | ps =>
    { regex := ps.foldr (fun p r => .seq p.regex r) .empty
      depth := if ps.isEmpty then 0 else (ps.map (·.depth)).foldl max 0 + 1 }

def add (l : Level) (p : Piece) : Level := { l with pieces := p :: l.pieces }

/-- Ends the current alternative. -/
def next (l : Level) : Level :=
  { pieces := [], alternatives := sequence l.pieces.reverse :: l.alternatives }

/-- Everything read as one piece. -/
def close (l : Level) : Piece :=
  let last := sequence l.pieces.reverse
  match l.alternatives with
  | [] => last
  | earlier =>
    { regex := earlier.foldl (fun r p => .alt p.regex r) last.regex
      depth := (earlier.map (·.depth)).foldl max last.depth + 1 }

end Level

/-- A pattern that is read in part. -/
structure Draft where
  flags : Flags := {}
  level : Level := {}
  /-- Levels around the current group, each with the flags that hold after the group. -/
  around : List (Level × Flags) := []
  /-- Names of groups so far. -/
  names : List (List Char) := []

namespace Draft

def add (d : Draft) (p : Piece) : Draft := { d with level := d.level.add p }

def addSet (d : Draft) (s : CharSet) (depth : Nat) : Draft := d.add ⟨.chars s, depth, true⟩

def addLook (d : Draft) (l : Look) : Draft := d.add ⟨.look l, 0, true⟩

def openGroup (d : Draft) (inside : Flags) : Draft :=
  { d with flags := inside, level := {}, around := (d.level, d.flags) :: d.around }

def closeGroup (d : Draft) : Option Draft :=
  match d.around with
  | [] => none
  | (level, flags) :: around =>
    let p := d.level.close
    some { d with
      flags, around
      level := level.add { regex := p.regex, depth := p.depth + 1 } }

/-- Repeats the latest piece; flags and nothing at all cannot be repeated. -/
def repeatLast (d : Draft) (least : Nat) (most : Option Nat) : Option Draft :=
  match d.level.pieces with
  | p :: rest =>
    if p.repeatable then
      let repeated := { regex := .times p.regex least most, depth := p.depth + 1 }
      some { d with level := { d.level with pieces := repeated :: rest } }
    else none
  | [] => none

/-- A literal character, in both cases where case means nothing. -/
def addLiteral (d : Draft) (c : Char) : Draft := d.addSet (d.flags.fold (.single c)) 0

/-- The piece a backslash starts; a byte beyond ASCII is no text. -/
def addAtom (d : Draft) : Atom → Option Draft
  | .literal c byte =>
    if byte && !d.flags.unicode && 128 ≤ c.toNat then none else some (d.addLiteral c)
  | .set s => some (d.addSet s 0)
  | .look l => some (d.addLook l)

def dotSet (f : Flags) : CharSet :=
  if f.dotAll then .any
  else if f.returns then .complement (.ofChars ['\n', '\r'])
  else .complement (.single '\n')

def startLook (f : Flags) : Look := if f.multiLine then .lineStart f.returns else .textStart

def endLook (f : Flags) : Look := if f.multiLine then .lineEnd f.returns else .textEnd

end Draft

/-! Repetitions with counts. -/

/-- Greatest count of a repetition. -/
def maxCount : Nat := 2 ^ (32 : Nat) - 1

/-- A count with blanks around it; the outer option is for counts that are too great. -/
def takeCount (f : Flags) (cs : List Char) : Option (Option Nat × List Char) :=
  let cs := cs.dropWhile Text.isBlank
  let isPart (c : Char) := Number.isDigit c || (f.spacing && Text.isBlank c)
  let digits := (if cs.head?.any Number.isDigit then cs.takeWhile isPart else []).filter Number.isDigit
  let rest := ((if digits = [] then cs else cs.dropWhile isPart).dropWhile Text.isBlank)
  if digits = [] then some (none, rest)
  else
    let n := Number.ofDigits digits
    if n ≤ maxCount then some (some n, rest) else none

/-- Counts after an opening brace, up to the closing one: at least, and at most. -/
def takeCounts (f : Flags) (cs : List Char) : Option ((Nat × Option Nat) × List Char) := do
  let (least, rest) ← takeCount f (f.skip cs)
  let least ← least
  match rest with
  | '\x7d' :: rest => pure ((least, some least), rest)
  | ',' :: rest => match f.skip rest with
    | '\x7d' :: rest => pure ((least, none), rest)
    | rest =>
      let (most, rest) ← takeCount f rest
      let most ← most
      match rest with
      | '\x7d' :: rest => if least ≤ most then pure ((least, some most), rest) else none
      | _ => none
  | _ => none

/-- The rest after the mark of a repetition that prefers few; it does not change what is found. -/
def dropLazy : List Char → List Char
  | '?' :: rest => rest
  | rest => rest

/-! Groups. -/

/-- Flags by letter; a repeated letter is refused, whether it sets or clears. -/
def setFlag? (f : Flags) (value : Bool) : Char → Option Flags
  | 'i' => some { f with insensitive := value }
  | 'm' => some { f with multiLine := value }
  | 's' => some { f with dotAll := value }
  | 'U' => some f
  | 'u' => some { f with unicode := value }
  | 'R' => some { f with returns := value }
  | 'x' => some { f with spacing := value }
  | _ => none

/-- Letters of flags up to the end of the list, after a single minus those to be cleared. -/
def readFlags (letters seen : List Char) (value : Bool) (f : Flags) : Option Flags :=
  match letters with
  | [] => if seen.head? = some '-' then none else some f
  | c :: rest =>
    if seen.contains c then none
    else if c = '-' then readFlags rest (c :: seen) false f
    else do
      let f ← setFlag? f value c
      readFlags rest (c :: seen) value f

def isNameStart (c : Char) : Bool := c = '_' || Text.isLetter c

def isNamePart (c : Char) : Bool :=
  isNameStart c || c = '.' || c = '[' || c = ']' || Text.inCategory "N" c

/-- The name of a group and the text after its closing mark. -/
def takeName (cs : List Char) : Option (List Char × List Char) :=
  match cs.span (· ≠ '>') with
  | (c :: name, _ :: rest) =>
    if isNameStart c && name.all isNamePart then some (c :: name, rest) else none
  | _ => none

/-- A named group: names are not repeated. -/
def Draft.openNamed (d : Draft) (cs : List Char) : Option (Draft × List Char) := do
  let (name, rest) ← takeName cs
  if d.names.contains name then none
  else pure ({ d.openGroup d.flags with names := name :: d.names }, rest)

/-- What an opening parenthesis starts: a group or a change of flags. -/
def Draft.openParenthesis (d : Draft) (cs : List Char) : Option (Draft × List Char) :=
  match d.flags.skip cs with
  | '?' :: 'P' :: '<' :: rest => d.openNamed rest
  | '?' :: '<' :: rest => match rest with
    | '=' :: _ | '!' :: _ => none
    | rest => d.openNamed rest
  | '?' :: rest =>
    match rest.span fun c => c ≠ ':' && c ≠ ')' with
    | (letters, ')' :: rest) =>
      if letters = [] then none
      else (readFlags letters [] true d.flags).map fun flags =>
        ({ d with flags }.add { regex := .empty, repeatable := false }, rest)
    | (letters, _ :: rest) =>
      (readFlags letters [] true d.flags).map fun flags => (d.openGroup flags, rest)
    | (_, []) => none
  | rest => some (d.openGroup d.flags, rest)

/-! Whole patterns. -/

/-- How deep a pattern may nest. -/
def depthLimit : Nat := 250

/-- Reads one piece or mark from text that is not empty. -/
def Draft.step (d : Draft) : List Char → Option (Draft × List Char)
  | [] => none
  | c :: rest =>
    let f := d.flags
    match c with
    | '(' => d.openParenthesis rest
    | ')' => d.closeGroup.map fun d => (d, rest)
    | '|' => some ({ d with level := d.level.next }, rest)
    | '[' => (bracketSet f rest).map fun (s, depth, rest) => (d.addSet s depth, rest)
    | '?' => (d.repeatLast 0 (some 1)).map fun d => (d, dropLazy rest)
    | '*' => (d.repeatLast 0 none).map fun d => (d, dropLazy rest)
    | '+' => (d.repeatLast 1 none).map fun d => (d, dropLazy rest)
    | '\x7b' => do
      let ((least, most), rest) ← takeCounts f rest
      let d ← d.repeatLast least most
      pure (d, dropLazy (f.skip rest))
    | '\\' => do
      let (atom, rest) ← escapeAtom f rest
      let d ← d.addAtom atom
      pure (d, rest)
    | '.' => if f.unicode then some (d.addSet (Draft.dotSet f) 0, rest) else none
    | '^' => some (d.addLook (Draft.startLook f), rest)
    | '$' => some (d.addLook (Draft.endLook f), rest)
    | c => some (d.addLiteral c, rest)

/-- Reads to the end; each step takes a character, so the length of the text is fuel enough. -/
def Draft.run : Nat → Draft → List Char → Option Piece
  | 0, _, _ => none
  | fuel + 1, d, cs => match d.flags.skip cs with
    | [] => if d.around.isEmpty then some d.level.close else none
    | cs => do
      let (d, cs) ← d.step cs
      run fuel d cs

/-- Bytes a set takes up when it is unfolded into bytes of UTF-8. -/
def CharSet.weight : CharSet → Nat
  | .none => 0
  | .range _ high => if high.toNat < 128 then 32 else 320
  | .category _ | .word | .letter | .small | .capital => 50000
  | .script _ => 2000
  | .blank => 1000
  | .union a b => weight a + weight b
  | .inter a b => max (weight a) (weight b)
  | .complement a => weight a + 320
  | .folded a => 3 * weight a
  | .foldedAscii a => 2 * weight a

/-- Bytes an expression takes up when its repetitions are unfolded. -/
def Regex.weight : Regex → Nat
  | .empty => 0
  | .chars s => s.weight
  | .look _ => 32
  | .seq a b => weight a + weight b
  | .alt a b => weight a + weight b + 32
  | .times r least none => (least + 1) * weight r + 32
  | .times r least (some most) => least * weight r + (most - least) * (weight r + 32)

/-- The most an expression may take up. -/
def weightLimit : Nat := 10 * 2 ^ (20 : Nat)

/-- Reads a regular expression; none when it is malformed, nests too deep or grows too big. -/
def parse? (pattern : String) : Option Regex :=
  match Draft.run (pattern.length + 1) {} pattern.toList with
  | some p => if p.depth ≤ depthLimit && p.regex.weight ≤ weightLimit then some p.regex else none
  | none => none

end CloudAudit.Pattern
