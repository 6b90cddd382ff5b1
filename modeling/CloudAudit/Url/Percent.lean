/-!
Percent encoding: bytes of UTF-8 that may not stand in a part of a URL are written as `%` and two
hexadecimal digits.
-/

namespace CloudAudit.Url

def hexDigit (n : Nat) : Char := if n < 10 then Char.ofNat (48 + n) else Char.ofNat (55 + n)

/-- A byte as `%` and two digits. -/
def escapeByte (b : UInt8) : List Char := ['%', hexDigit (b.toNat / 16), hexDigit (b.toNat % 16)]

def escapeChar (c : Char) : List Char := (String.utf8EncodeChar c).flatMap escapeByte

/-- Escapes the characters of a set, and all that are not ASCII. -/
def encode (escaped : Char → Bool) (cs : List Char) : List Char :=
  cs.flatMap fun c => if 128 ≤ c.toNat || escaped c then escapeChar c else [c]

def isControl (c : Char) : Bool := c.toNat < 32 || c.toNat = 127

/-! The sets of characters that are escaped in the parts of a URL. -/

def inFragment (c : Char) : Bool := isControl c || " \"<>\x60".toList.contains c

def inPath (c : Char) : Bool := inFragment c || "#?\x7b\x7d".toList.contains c

def inUserInfo (c : Char) : Bool := inPath c || "/:;=@[\\]^|".toList.contains c

/-- In a single segment of a path; special schemes read a backslash as a slash. -/
def inSegment (special : Bool) (c : Char) : Bool :=
  inPath c || c = '/' || c = '%' || (special && c = '\\')

def inQuery (special : Bool) (c : Char) : Bool :=
  isControl c || " \"#<>".toList.contains c || (special && c = '\'')

/-- In a name or value of a form; a blank becomes a plus. -/
def inForm (c : Char) : Bool := !(c.isAlphanum || "*-._".toList.contains c)

def encodeForm (cs : List Char) : List Char :=
  cs.flatMap fun c => if c = ' ' then ['+'] else encode inForm [c]

/-- Value of a hexadecimal digit. -/
def hexValue? (c : Char) : Option Nat :=
  if c.isDigit then some (c.toNat - 48)
  else if 'a' ≤ c && c ≤ 'f' then some (c.toNat - 87)
  else if 'A' ≤ c && c ≤ 'F' then some (c.toNat - 55)
  else none

/-- Bytes of a text, with escapes read; a `%` without two digits stands for itself. -/
def decodeBytes : List Char → List UInt8
  | [] => []
  | '%' :: a :: b :: rest => match hexValue? a, hexValue? b with
    | some x, some y => (16 * x + y).toUInt8 :: decodeBytes rest
    | _, _ => String.utf8EncodeChar '%' ++ decodeBytes (a :: b :: rest)
  | c :: rest => String.utf8EncodeChar c ++ decodeBytes rest

/-- Text with escapes read; none when the bytes are no UTF-8. -/
def decode? (cs : List Char) : Option (List Char) :=
  (String.fromUTF8? ⟨(decodeBytes cs).toArray⟩).map String.toList

end CloudAudit.Url
