import CloudAudit.Json.Literal

/-!
JSON text as written: number literals unread and repeated keys kept. Reading text goes through
this tree, so that a part nobody asks for needs no valid numbers or characters.
-/

namespace CloudAudit.Json

/-- Text as written. A string is absent when an escape names half of a surrogate pair. -/
inductive Syntax where
  | null
  | bool (b : Bool)
  | number (lit : NumberLiteral)
  | string (s : Option String)
  | array (items : List Syntax)
  | object (fields : List (Option String × Syntax))
  deriving Inhabited

namespace Syntax

def isSpace (c : Char) : Bool := c = ' ' || c = '\n' || c = '\t' || c = '\r'

def skipSpace (cs : List Char) : List Char := cs.dropWhile isSpace

def hexValue? (c : Char) : Option Nat :=
  if '0' ≤ c ∧ c ≤ '9' then some (c.toNat - '0'.toNat)
  else if 'a' ≤ c ∧ c ≤ 'f' then some (c.toNat - 'a'.toNat + 10)
  else if 'A' ≤ c ∧ c ≤ 'F' then some (c.toNat - 'A'.toNat + 10)
  else none

def hex4? (a b c d : Char) : Option Nat := do
  let a ← hexValue? a
  let b ← hexValue? b
  let c ← hexValue? c
  let d ← hexValue? d
  pure (((a * 16 + b) * 16 + c) * 16 + d)

/-- One piece of a string: a character, or half of a surrogate pair. -/
inductive Unit16 where
  | char (c : Char)
  | high (n : Nat)
  | low (n : Nat)

def Unit16.ofNat (n : Nat) : Unit16 :=
  if 0xd800 ≤ n ∧ n < 0xdc00 then .high n
  else if 0xdc00 ≤ n ∧ n < 0xe000 then .low n
  else .char (Char.ofNat n)

/-- Characters of the pieces; none when halves do not pair up. -/
def joinUnits : List Unit16 → Option (List Char)
  | [] => some []
  | .char c :: rest => (joinUnits rest).map (c :: ·)
  | .high h :: .low l :: rest =>
    (joinUnits rest).map (Char.ofNat (0x10000 + (h - 0xd800) * 0x400 + (l - 0xdc00)) :: ·)
  | .high _ :: _ => none
  | .low _ :: _ => none

/-- Pieces of a string after its opening quote, and what follows its closing quote. -/
def stringUnits : List Char → Option (List Unit16 × List Char)
  | [] => none
  | '"' :: rest => some ([], rest)
  | '\\' :: 'u' :: a :: b :: c :: d :: rest => do
    let n ← hex4? a b c d
    let (units, after) ← stringUnits rest
    pure (Unit16.ofNat n :: units, after)
  | '\\' :: e :: rest => do
    let c ← match e with
      | '"' => some '"'
      | '\\' => some '\\'
      | '/' => some '/'
      | 'b' => some (Char.ofNat 8)
      | 'f' => some (Char.ofNat 12)
      | 'n' => some '\n'
      | 'r' => some '\r'
      | 't' => some '\t'
      | _ => none
    let (units, after) ← stringUnits rest
    pure (.char c :: units, after)
  | c :: rest =>
    if c.toNat < 0x20 ∨ c = '\\' then none
    else do
      let (units, after) ← stringUnits rest
      pure (.char c :: units, after)

def stringText (cs : List Char) : Option (Option String × List Char) := do
  let (units, rest) ← stringUnits cs
  pure ((joinUnits units).map String.ofList, rest)

def isDigit (c : Char) : Bool := '0' ≤ c && c ≤ '9'

def spanDigits (cs : List Char) : List Char × List Char := (cs.takeWhile isDigit, cs.dropWhile isDigit)

/-- Exponent after its mark: an optional sign and at least one digit. -/
def exponentPart (cs : List Char) : Option ((Bool × List Char) × List Char) :=
  let (negative, body) := match cs with
    | '-' :: rest => (true, rest)
    | '+' :: rest => (false, rest)
    | rest => (false, rest)
  match spanDigits body with
  | ([], _) => none
  | (ds, rest) => some ((negative, ds), rest)

/-- A number: no leading zero, and a digit after a point. -/
def number? (cs : List Char) : Option (NumberLiteral × List Char) := do
  let (negative, body) := match cs with
    | '-' :: rest => (true, rest)
    | rest => (false, rest)
  let (whole, rest) := spanDigits body
  if whole.isEmpty || (whole.head? = some '0' && whole.length > 1) then none
  let (fraction, rest) ← match rest with
    | '.' :: rest => match spanDigits rest with
      | ([], _) => none
      | (ds, rest) => some (ds, rest)
    | rest => some ([], rest)
  match rest with
  | 'e' :: rest | 'E' :: rest =>
    let (e, rest) ← exponentPart rest
    pure (⟨negative, whole, fraction, some e⟩, rest)
  | rest => pure (⟨negative, whole, fraction, none⟩, rest)

mutual

/-- One value and the text after it. The fuel bounds nesting; two per character suffice. -/
def value : Nat → List Char → Option (Syntax × List Char)
  | 0, _ => none
  | fuel + 1, cs =>
    match skipSpace cs with
    | 'n' :: 'u' :: 'l' :: 'l' :: rest => some (.null, rest)
    | 't' :: 'r' :: 'u' :: 'e' :: rest => some (.bool true, rest)
    | 'f' :: 'a' :: 'l' :: 's' :: 'e' :: rest => some (.bool false, rest)
    | '"' :: rest => (stringText rest).map fun (s, rest) => (.string s, rest)
    | '[' :: rest => match skipSpace rest with
      | ']' :: rest => some (.array [], rest)
      | rest => (elements fuel rest).map fun (vs, rest) => (.array vs, rest)
    | '\x7b' :: rest => match skipSpace rest with
      | '\x7d' :: rest => some (.object [], rest)
      | rest => (members fuel rest).map fun (fs, rest) => (.object fs, rest)
    | rest => (number? rest).map fun (lit, rest) => (.number lit, rest)

def elements : Nat → List Char → Option (List Syntax × List Char)
  | 0, _ => none
  | fuel + 1, cs => do
    let (v, rest) ← value fuel cs
    match skipSpace rest with
    | ',' :: rest =>
      let (vs, rest) ← elements fuel rest
      pure (v :: vs, rest)
    | ']' :: rest => pure ([v], rest)
    | _ => none

def members : Nat → List Char → Option (List (Option String × Syntax) × List Char)
  | 0, _ => none
  | fuel + 1, cs => do
    let (k, rest) ← match skipSpace cs with
      | '"' :: rest => stringText rest
      | _ => none
    let rest ← match skipSpace rest with
      | ':' :: rest => some rest
      | _ => none
    let (v, rest) ← value fuel rest
    match skipSpace rest with
    | ',' :: rest =>
      let (fs, rest) ← members fuel rest
      pure ((k, v) :: fs, rest)
    | '\x7d' :: rest => pure ([(k, v)], rest)
    | _ => none

end

/-- The one value of a text; blanks may stand around it and nothing else. -/
def ofText? (text : String) : Option Syntax := do
  let cs := text.toList
  let (v, rest) ← value (2 * cs.length + 2) cs
  if (skipSpace rest).isEmpty then some v else none

mutual

/--
The value denoted, at most `depth` containers deep. A repeated key keeps its first place and takes
its last value; a number that overflows or a broken surrogate pair denotes nothing.
-/
def toJson? (depth : Nat) : Syntax → Option Json
  | .null => some .null
  | .bool b => some (.bool b)
  | .number lit => lit.toNumber?.map .number
  | .string s => s.map .string
  | .array items =>
    if depth = 0 then none else (listToJson? (depth - 1) items).map .array
  | .object fields =>
    if depth = 0 then none
    else (fieldsToJson? (depth - 1) fields).map fun fs => .object (Fields.ofPairs fs)

def listToJson? (depth : Nat) : List Syntax → Option (List Json)
  | [] => some []
  | v :: rest => do
    let v ← toJson? depth v
    let rest ← listToJson? depth rest
    pure (v :: rest)

def fieldsToJson? (depth : Nat) : List (Option String × Syntax) → Option (List (String × Json))
  | [] => some []
  | (k, v) :: rest => do
    let k ← k
    let v ← toJson? depth v
    let rest ← fieldsToJson? depth rest
    pure ((k, v) :: rest)

end

end Syntax

/-- How deeply containers may nest in JSON text. -/
def depthLimit : Nat := 127

/-- The value of a JSON text under a bound on nesting. -/
def parseWithin? (depth : Nat) (text : String) : Option Json :=
  (Syntax.ofText? text).bind (Syntax.toJson? depth)

def parse? (text : String) : Option Json := parseWithin? depthLimit text

end CloudAudit.Json
