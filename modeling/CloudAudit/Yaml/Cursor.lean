/-!
Positions in YAML text and the characters that matter to it.
-/

namespace CloudAudit.Yaml

/-- Line breaks: LF, CR, NEL, LS and PS. -/
def isBreak (c : Char) : Bool :=
  c = '\n' || c = '\r' || c.toNat = 0x85 || c.toNat = 0x2028 || c.toNat = 0x2029

/-- Blanks within a line. -/
def isBlank (c : Char) : Bool := c = ' ' || c = '\t'

def isGap (c : Char) : Bool := isBlank c || isBreak c

/-- Letters of names of anchors, handles and directives. -/
def isWordChar (c : Char) : Bool := c.isAlphanum || c = '_' || c = '-'

def hexValue? (c : Char) : Option Nat :=
  if '0' ≤ c ∧ c ≤ '9' then some (c.toNat - '0'.toNat)
  else if 'a' ≤ c ∧ c ≤ 'f' then some (c.toNat - 'a'.toNat + 10)
  else if 'A' ≤ c ∧ c ≤ 'F' then some (c.toNat - 'A'.toNat + 10)
  else none

/-- Characters YAML text may hold. -/
def isPermitted (c : Char) : Bool :=
  let n := c.toNat
  n == 0x09 || n == 0x0a || n == 0x0d || (0x20 ≤ n && n ≤ 0x7e) || n == 0x85 ||
    (0xa0 ≤ n && n ≤ 0xd7ff) || (0xe000 ≤ n && n ≤ 0xfffd) || 0x10000 ≤ n

/-- The byte order mark. -/
def isMark (c : Char) : Bool := c.toNat = 0xfeff

/-- What is left to read, and where it stands. -/
structure Cursor where
  rest : List Char
  index : Nat := 0
  line : Nat := 0
  column : Nat := 0

namespace Cursor

def ahead? (c : Cursor) (n : Nat) : Option Char := c.rest[n]?

def isAtEnd (c : Cursor) : Bool := c.rest.isEmpty

/-- Whether the character `n` ahead satisfies a test; the end satisfies none. -/
def sees (c : Cursor) (n : Nat) (test : Char → Bool) : Bool := (c.ahead? n).any test

def seesChar (c : Cursor) (n : Nat) (x : Char) : Bool := c.sees n (· = x)

/-- A gap or the end `n` ahead. -/
def seesGapOrEnd (c : Cursor) (n : Nat) : Bool := (c.ahead? n).all isGap

def seesBreakOrEnd (c : Cursor) : Bool := (c.ahead? 0).all isBreak

/-- Past `n` characters of the same line. -/
def skip (c : Cursor) (n : Nat) : Cursor :=
  { c with rest := c.rest.drop n, index := c.index + n, column := c.column + n }

/-- Past one line break, if there is one. -/
def skipBreak (c : Cursor) : Cursor :=
  match c.rest with
  | '\r' :: '\n' :: rest => { rest, index := c.index + 2, line := c.line + 1, column := 0 }
  | x :: rest =>
    if isBreak x then { rest, index := c.index + 1, line := c.line + 1, column := 0 } else c
  | [] => c

/-- The break at the cursor as text: LS and PS stay, any other break is a line feed. -/
def breakText (c : Cursor) : List Char :=
  match c.rest with
  | x :: _ =>
    if x.toNat = 0x2028 ∨ x.toNat = 0x2029 then [x] else if isBreak x then ['\n'] else []
  | [] => []

def takeWhile (c : Cursor) (test : Char → Bool) : List Char := c.rest.takeWhile test

def skipWhile (c : Cursor) (test : Char → Bool) : Cursor := c.skip (c.takeWhile test).length

def skipBlanks (c : Cursor) : Cursor := c.skipWhile isBlank

/-- Past a comment, up to the end of the line. -/
def skipComment (c : Cursor) : Cursor :=
  if c.seesChar 0 '#' then c.skipWhile (!isBreak ·) else c

/-- Blanks and a comment may stand before the end of a line, and nothing else. -/
def finishLine? (c : Cursor) : Option Cursor :=
  let c := c.skipBlanks.skipComment
  if c.seesBreakOrEnd then some c.skipBreak else none

/-- Whether `---` or `...` stands here as a document marker. -/
def seesMarker (c : Cursor) (x : Char) : Bool :=
  c.column == 0 && c.seesChar 0 x && c.seesChar 1 x && c.seesChar 2 x && c.seesGapOrEnd 3

def seesDocumentMarker (c : Cursor) : Bool := c.seesMarker '-' || c.seesMarker '.'

end Cursor

end CloudAudit.Yaml
