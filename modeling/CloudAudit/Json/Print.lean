import CloudAudit.Json.Basic
import CloudAudit.Number.Shortest

/-!
JSON text of a value: compact, or spread over lines with two blanks per level.
-/

namespace CloudAudit

def Number.render : Number → String
  | .integer n => toString n
  | .double x => x.render jsonLayout

namespace Json

def hexDigit (n : Nat) : Char := (Nat.digitChar n)

/-- Only the quote, the backslash and control characters are escaped. -/
def escapeChar (c : Char) : List Char :=
  if c = '"' then ['\\', '"']
  else if c = '\\' then ['\\', '\\']
  else if c.toNat = 8 then ['\\', 'b']
  else if c.toNat = 9 then ['\\', 't']
  else if c.toNat = 10 then ['\\', 'n']
  else if c.toNat = 12 then ['\\', 'f']
  else if c.toNat = 13 then ['\\', 'r']
  else if c.toNat < 0x20 then ['\\', 'u', '0', '0', hexDigit (c.toNat / 16), hexDigit (c.toNat % 16)]
  else [c]

def quote (s : String) : String := "\"" ++ String.ofList (s.toList.flatMap escapeChar) ++ "\""

mutual

/-- Compact JSON text. -/
def compact : Json → String
  | .null => "null"
  | .bool true => "true"
  | .bool false => "false"
  | .number n => n.render
  | .string s => quote s
  | .array items => "[" ++ compactItems true items ++ "]"
  | .object fields => "\x7b" ++ compactFields true fields ++ "\x7d"

def compactItems (first : Bool) : List Json → String
  | [] => ""
  | v :: rest => (if first then "" else ",") ++ compact v ++ compactItems false rest

def compactFields (first : Bool) : List (String × Json) → String
  | [] => ""
  | (k, v) :: rest =>
    (if first then "" else ",") ++ quote k ++ ":" ++ compact v ++ compactFields false rest

end

def indent (level : Nat) : String := "\n" ++ String.ofList (List.replicate (2 * level) ' ')

mutual

/-- JSON text over lines; `level` is the depth of the value's own line. -/
def prettyAt (level : Nat) : Json → String
  | .null => "null"
  | .bool true => "true"
  | .bool false => "false"
  | .number n => n.render
  | .string s => quote s
  | .array [] => "[]"
  | .array items => "[" ++ prettyItems (level + 1) true items ++ indent level ++ "]"
  | .object [] => "\x7b\x7d"
  | .object fields => "\x7b" ++ prettyFields (level + 1) true fields ++ indent level ++ "\x7d"

def prettyItems (level : Nat) (first : Bool) : List Json → String
  | [] => ""
  | v :: rest =>
    (if first then "" else ",") ++ indent level ++ prettyAt level v ++ prettyItems level false rest

def prettyFields (level : Nat) (first : Bool) : List (String × Json) → String
  | [] => ""
  | (k, v) :: rest =>
    (if first then "" else ",") ++ indent level ++ quote k ++ ": " ++ prettyAt level v ++
      prettyFields level false rest

end

def pretty (v : Json) : String := prettyAt 0 v

end Json

end CloudAudit
