import CloudAudit.Number.Text
import CloudAudit.Toml.Basic

/-!
The pieces of TOML text: blanks and comments, keys, strings, numbers, dates and times.
-/

namespace CloudAudit.Toml

-- Powers are core's, also where an algebra library is imported.
attribute [local instance (high)] instPowNat

def isBlank (c : Char) : Bool := c = ' ' || c = '\t'

def skipBlank (cs : List Char) : List Char := cs.dropWhile isBlank

/-- Characters of comments and strings: all but controls; a tab is none. -/
def isPlain (c : Char) : Bool := c = '\t' || (32 ≤ c.toNat && c.toNat ≠ 127)

/-- Skips blanks, line ends and comments; the flag says that a comment has begun. -/
def skipLines : Bool → List Char → Option (List Char)
  | _, [] => some []
  | _, '\n' :: rest => skipLines false rest
  | _, '\r' :: '\n' :: rest => skipLines false rest
  | true, c :: rest => if isPlain c then skipLines true rest else none
  | false, '#' :: rest => skipLines true rest
  | false, c :: rest => if isBlank c then skipLines false rest else some (c :: rest)

/-- Skips to the next line; only a comment may stand before its end. -/
def endLine (cs : List Char) : Option (List Char) :=
  match skipBlank cs with
  | [] => some []
  | '\n' :: rest => some rest
  | '\r' :: '\n' :: rest => some rest
  | '#' :: rest => skipLines true rest
  | _ => none

/-! Strings. -/

def hexDigit? (c : Char) : Option Nat :=
  if c.isDigit then some (c.toNat - 48)
  else if 'a' ≤ c && c ≤ 'f' then some (c.toNat - 87)
  else if 'A' ≤ c && c ≤ 'F' then some (c.toNat - 55)
  else none

/-- The character of a code in hexadecimal digits. -/
def escapedCode? (digits : List Char) : Option Char := do
  let ds ← digits.mapM hexDigit?
  let n := ds.foldl (fun n d => 16 * n + d) 0
  if n.isValidChar then some (Char.ofNat n) else none

/-- The character of an escape of one letter. -/
def escapedLetter? : Char → Option Char
  | 'b' => some (Char.ofNat 8)
  | 't' => some '\t'
  | 'n' => some '\n'
  | 'f' => some (Char.ofNat 12)
  | 'r' => some '\r'
  | '"' => some '"'
  | '\\' => some '\\'
  | _ => none

/-- A piece of text and what follows it. -/
abbrev Piece := Option (List Char × List Char)

def Piece.cons (c : Char) : Piece → Piece
  | some (cs, rest) => some (c :: cs, rest)
  | none => none

/-- A string in double quotes, after the first. -/
def basicText : List Char → Piece
  | [] => none
  | '"' :: rest => some ([], rest)
  | '\\' :: 'u' :: a :: b :: c :: d :: rest => match escapedCode? [a, b, c, d] with
    | some x => (basicText rest).cons x
    | none => none
  | '\\' :: 'U' :: a :: b :: c :: d :: e :: f :: g :: h :: rest =>
    match escapedCode? [a, b, c, d, e, f, g, h] with
    | some x => (basicText rest).cons x
    | none => none
  | '\\' :: e :: rest => match escapedLetter? e with
    | some x => (basicText rest).cons x
    | none => none
  | c :: rest => if isPlain c && c ≠ '\\' then (basicText rest).cons c else none

/-- A string in single quotes, after the first; it has no escapes. -/
def literalText : List Char → Piece
  | [] => none
  | '\'' :: rest => some ([], rest)
  | c :: rest => if isPlain c then (literalText rest).cons c else none

/-- The end of a string in threefold quotes: up to two more belong to the string. -/
def closing (quote : Char) : List Char → List Char × List Char
  | a :: b :: rest =>
    if a = quote && b = quote then ([a, b], rest)
    else if a = quote then ([a], b :: rest)
    else ([], a :: b :: rest)
  | [a] => if a = quote then ([a], []) else ([], [a])
  | [] => ([], [])

/-- Whether a line ends after blanks. -/
def endsBlank (cs : List Char) : Bool :=
  match skipBlank cs with
  | '\n' :: _ => true
  | '\r' :: '\n' :: _ => true
  | _ => false

/--
A string in threefold double quotes, after them. A backslash at the end of a line drops blanks and
line ends up to the next text; the flag says that it is in force.
-/
def longText : Bool → List Char → Piece
  | _, [] => none
  | _, '"' :: '"' :: '"' :: rest => some (closing '"' rest)
  | joins, '\n' :: rest => if joins then longText true rest else (longText false rest).cons '\n'
  | joins, '\r' :: '\n' :: rest =>
    if joins then longText true rest else (longText false rest).cons '\n'
  | _, '\\' :: 'u' :: a :: b :: c :: d :: rest => match escapedCode? [a, b, c, d] with
    | some x => (longText false rest).cons x
    | none => none
  | _, '\\' :: 'U' :: a :: b :: c :: d :: e :: f :: g :: h :: rest =>
    match escapedCode? [a, b, c, d, e, f, g, h] with
    | some x => (longText false rest).cons x
    | none => none
  | _, '\\' :: e :: rest =>
    if endsBlank (e :: rest) then longText true (e :: rest)
    else match escapedLetter? e with
      | some x => (longText false rest).cons x
      | none => none
  | joins, c :: rest =>
    if joins && isBlank c then longText true rest
    else if isPlain c && c ≠ '\\' then (longText false rest).cons c
    else none

/-- A string in threefold single quotes, after them. -/
def longLiteral : List Char → Piece
  | [] => none
  | '\'' :: '\'' :: '\'' :: rest => some (closing '\'' rest)
  | '\n' :: rest => (longLiteral rest).cons '\n'
  | '\r' :: '\n' :: rest => (longLiteral rest).cons '\n'
  | c :: rest => if isPlain c then (longLiteral rest).cons c else none

/-- A line end right after threefold quotes is no text. -/
def dropLineEnd : List Char → List Char
  | '\n' :: rest => rest
  | '\r' :: '\n' :: rest => rest
  | cs => cs

/-- A string with its quotes. -/
def quoted : List Char → Piece
  | '"' :: '"' :: '"' :: rest => longText false (dropLineEnd rest)
  | '"' :: rest => basicText rest
  | '\'' :: '\'' :: '\'' :: rest => longLiteral (dropLineEnd rest)
  | '\'' :: rest => literalText rest
  | _ => none

/-! Keys. -/

def isBareKey (c : Char) : Bool := c.isAlphanum || c = '-' || c = '_'

/-- One part of a key. -/
def keyPart : List Char → Piece
  | '"' :: rest => basicText rest
  | '\'' :: rest => literalText rest
  | cs => match cs.span isBareKey with
    | ([], _) => none
    | found => some found

/-- How many parts a key may have. -/
def partLimit : Nat := 79

/-- Parts of a key between dots, and the text after it and its blanks. -/
def keyParts : Nat → List Char → Option (List String × List Char)
  | 0, _ => none
  | fuel + 1, cs => do
    let (part, rest) ← keyPart (skipBlank cs)
    match skipBlank rest with
    | '.' :: rest =>
      let (parts, rest) ← keyParts fuel rest
      pure (String.ofList part :: parts, rest)
    | rest => pure ([String.ofList part], rest)

def key (cs : List Char) : Option (List String × List Char) := keyParts partLimit cs

/-! Words: numbers, dates and times. -/

/-- Digits, with single underscores between them that mean nothing. -/
def digits? (isDigit : Char → Bool) : List Char → Option (List Char)
  | [] => none
  | [c] => if isDigit c then some [c] else none
  | c :: '_' :: rest => if isDigit c then (digits? isDigit rest).map (c :: ·) else none
  | c :: rest => if isDigit c then (digits? isDigit rest).map (c :: ·) else none

def maxInteger : Nat := 2 ^ (63 : Nat) - 1

/-- An integer in another base, after its mark. -/
def inBase? (base : Nat) (cs : List Char) : Option Toml := do
  let isDigit (c : Char) := (hexDigit? c).any fun d => d < base
  let ds ← digits? isDigit cs
  let n := ds.foldl (fun n c => base * n + (hexDigit? c).getD 0) 0
  if n ≤ maxInteger then some (.integer n) else none

/-- The digits of a whole number: no zero stands before others. -/
def whole? (cs : List Char) : Option (List Char) := do
  let ds ← digits? Char.isDigit cs
  if ds.head? = some '0' && 1 < ds.length then none else some ds

/-- A whole number or a decimal without its sign. -/
def unsigned? (negative : Bool) (cs : List Char) : Option Toml := do
  let (front, exponent) := cs.span fun c => c ≠ 'e' && c ≠ 'E'
  let (whole, fraction) := front.span (· ≠ '.')
  let ds ← whole? whole
  let sign := if negative then ['-'] else []
  if exponent = [] && fraction = [] then
    let n : Int := if negative then -(Number.ofDigits ds) else Number.ofDigits ds
    if -(2 ^ (63 : Nat)) ≤ n ∧ n ≤ maxInteger then some (.integer n) else none
  else
    let fraction ← match fraction with
      | [] => some []
      | _ :: rest => (digits? Char.isDigit rest).map ('.' :: ·)
    let exponent ← match exponent with
      | [] => some []
      | _ :: '+' :: rest => (digits? Char.isDigit rest).map ('e' :: ·)
      | _ :: '-' :: rest => (digits? Char.isDigit rest).map ('e' :: '-' :: ·)
      | _ :: rest => (digits? Char.isDigit rest).map ('e' :: ·)
    let literal := sign ++ ds ++ fraction ++ exponent
    if negative || (Number.finite? literal).isSome then some (.decimal (String.ofList literal))
    else none

/-- A number. A positive one must not overflow. -/
def number? : List Char → Option Toml
  | '0' :: 'x' :: rest => inBase? 16 rest
  | '0' :: 'o' :: rest => inBase? 8 rest
  | '0' :: 'b' :: rest => inBase? 2 rest
  | cs =>
    let (negative, body) := Number.splitSign cs
    if body = "inf".toList || body = "nan".toList then some (.decimal (String.ofList cs))
    else unsigned? negative body

/-- A number of two digits up to a limit. -/
def isTwo (least most : Nat) (a b : Char) : Bool :=
  match Number.natural? [a, b] with
  | some n => least ≤ n && n ≤ most
  | none => false

def daysIn (year month : Nat) : Nat :=
  if month = 2 then
    if year % 4 = 0 && (year % 100 ≠ 0 || year % 400 = 0) then 29 else 28
  else if [4, 6, 9, 11].contains month then 30
  else 31

def isDate : List Char → Bool
  | [a, b, c, d, '-', e, f, '-', g, h] =>
    match Number.natural? [a, b, c, d], Number.natural? [e, f] with
    | some year, some month => 1 ≤ month && month ≤ 12 && isTwo 1 (daysIn year month) g h
    | _, _ => false
  | _ => false

/-- A time of day with an offset where one is allowed. -/
def isTime (offset : Bool) : List Char → Bool
  | a :: b :: ':' :: c :: d :: ':' :: e :: f :: rest =>
    let rest? := match rest with
      | '.' :: rest => match rest.span Char.isDigit with
        | ([], _) => none
        | (_, rest) => some rest
      | rest => some rest
    isTwo 0 23 a b && isTwo 0 59 c d && isTwo 0 60 e f && match rest? with
      | none => false
      | some [] => true
      | some ['Z'] | some ['z'] => offset
      | some [s, g, h, ':', i, j] =>
        offset && (s = '+' || s = '-') && isTwo 0 23 g h && isTwo 0 59 i j
      | some _ => false
  | _ => false

/-- A date, a time, or both with a letter between them. -/
def isMoment (cs : List Char) : Bool :=
  isDate cs || isTime false cs || (isDate (cs.take 10) && match cs.drop 10 with
    | 'T' :: rest | 't' :: rest => isTime true rest
    | _ => false)

def isWordChar (c : Char) : Bool := c.isAlphanum || "+-_.:".toList.contains c

/-- The value of a word. -/
def word? (cs : List Char) : Option Toml :=
  if cs = "true".toList then some (.flag true)
  else if cs = "false".toList then some (.flag false)
  else if isMoment cs then some (.moment (String.ofList cs))
  else number? cs

/-- A value without quotes or brackets. A time may follow a date after one blank. -/
def bare (cs : List Char) : Option (Toml × List Char) :=
  let (word, rest) := cs.span isWordChar
  match rest with
  | ' ' :: d :: after =>
    if isDate word && d.isDigit then
      let (time, rest) := (d :: after).span isWordChar
      if isTime true time then some (.moment (String.ofList (word ++ ' ' :: time)), rest) else none
    else (word? word).map fun v => (v, rest)
  | rest => (word? word).map fun v => (v, rest)

end CloudAudit.Toml
