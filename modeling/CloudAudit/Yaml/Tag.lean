import CloudAudit.Yaml.Cursor

/-!
Tags, anchors and directives of YAML.
-/

namespace CloudAudit.Yaml

-- Powers are core's, also where an algebra library is imported.
attribute [local instance (high)] instPowNat

/-- A tag as written: a handle that stands for a start, and the rest. -/
structure TagText where
  handle : List Char
  suffix : List Char
  deriving DecidableEq, Repr

namespace TagText

def isUriChar (verbatim : Bool) (c : Char) : Bool :=
  isWordChar c || ";/?:@&=+$.!~*'()".toList.contains c || (verbatim && ",[]".toList.contains c)

/-- One octet written as two hexadecimal digits. -/
def octet? : List Char → Option Nat
  | '%' :: a :: b :: _ => do
    let a ← hexValue? a
    let b ← hexValue? b
    pure (16 * a + b)
  | _ => none

/-- Width of a character by its first octet. -/
def widthOf? (octet : Nat) : Option Nat :=
  if octet < 0x80 then some 1
  else if 0xc0 ≤ octet ∧ octet < 0xe0 then some 2
  else if 0xe0 ≤ octet ∧ octet < 0xf0 then some 3
  else if 0xf0 ≤ octet ∧ octet < 0xf8 then some 4
  else none

/-- Continuation octets of a character. -/
def continuation? : Nat → Nat → List Char → Option Nat
  | 0, value, _ => some value
  | count + 1, value, cs => do
    let o ← octet? cs
    if 0x80 ≤ o ∧ o < 0xc0 then continuation? count (64 * value + (o - 0x80)) (cs.drop 3) else none

/-- A character written as escaped octets, and how many characters the escapes take. -/
def escaped? (cs : List Char) : Option (Char × Nat) := do
  let first ← octet? cs
  let width ← widthOf? first
  let lead := if width = 1 then first else first % 2 ^ (7 - width)
  let value ← continuation? (width - 1) lead (cs.drop 3)
  pure (Char.ofNat value, 3 * width)

/-- Characters of a URI with escapes read, and the rest. -/
def uri? (verbatim : Bool) : Nat → List Char → Option (List Char × Nat)
  | 0, _ => some ([], 0)
  | fuel + 1, cs =>
    match cs with
    | [] => some ([], 0)
    | c :: rest =>
      if c = '%' then do
        let (x, width) ← escaped? cs
        let (more, length) ← uri? verbatim fuel (cs.drop width)
        pure (x :: more, width + length)
      else if isUriChar verbatim c then do
        let (more, length) ← uri? verbatim fuel rest
        pure (c :: more, length + 1)
      else some ([], 0)

def readUri? (verbatim : Bool) (c : Cursor) : Option (List Char × Cursor) := do
  let (text, length) ← uri? verbatim c.rest.length c.rest
  pure (text, c.skip length)

/-- A handle: `!`, letters, and perhaps another `!`. -/
def handle? (c : Cursor) : Option (List Char × Cursor) :=
  if c.seesChar 0 '!' then
    let word := (c.skip 1).takeWhile isWordChar
    let after := c.skip (1 + word.length)
    if after.seesChar 0 '!' then some ('!' :: word ++ ['!'], after.skip 1)
    else some ('!' :: word, after)
  else none

/-- Reads a tag: verbatim in angle brackets, a handle and a suffix, or a local tag. -/
def read? (flow : Bool) (c : Cursor) : Option (TagText × Cursor) := do
  let (tag, c) ←
    if c.seesChar 1 '<' then do
      let (suffix, c) ← readUri? true (c.skip 2)
      if suffix.isEmpty || !c.seesChar 0 '>' then none
      else pure (TagText.mk [] suffix, c.skip 1)
    else do
      let (handle, c) ← handle? c
      if handle.length > 1 && handle.getLast? = some '!' then do
        let (suffix, c) ← readUri? false c
        if suffix.isEmpty then none else pure (TagText.mk handle suffix, c)
      else do
        let (suffix, c) ← readUri? false c
        let whole := handle.drop 1 ++ suffix
        pure (if whole.isEmpty then TagText.mk [] ['!'] else TagText.mk ['!'] whole, c)
  if (flow && c.seesChar 0 ',') || c.seesGapOrEnd 0 then pure (tag, c) else none

/-- The tag with its handle expanded; none for a handle nobody declared. -/
def expand? (handles : List (List Char × List Char)) (t : TagText) : Option String :=
  if t.handle.isEmpty then some (String.ofList t.suffix)
  else (handles.lookup t.handle).map fun start => String.ofList (start ++ t.suffix)

/-- Handles every document knows. -/
def standardHandles : List (List Char × List Char) :=
  [(['!'], ['!']), (['!', '!'], "tag:yaml.org,2002:".toList)]

end TagText

/-- Name of an anchor or alias, after its mark. -/
def anchorName? (c : Cursor) : Option (String × Cursor) :=
  let name := (c.skip 1).takeWhile isWordChar
  let after := c.skip (1 + name.length)
  let ends := after.seesGapOrEnd 0 || after.sees 0 fun x => "?:,]\x7d%@`".toList.contains x
  if !name.isEmpty && ends then some (String.ofList name, after) else none

/-- A line that starts with `%`. -/
inductive Directive where
  | version (major minor : Nat)
  | handle (handle start : List Char)

namespace Directive

/-- A version number of at most nine digits. -/
def number? (c : Cursor) : Option (Nat × Cursor) :=
  let digits := c.takeWhile Char.isDigit
  if digits.isEmpty || digits.length > 9 then none
  else some (digits.foldl (fun n d => 10 * n + (d.toNat - '0'.toNat)) 0, c.skip digits.length)

def version? (c : Cursor) : Option (Directive × Cursor) := do
  let (major, c) ← number? c.skipBlanks
  if c.seesChar 0 '.' then
    let (minor, c) ← number? (c.skip 1)
    pure (.version major minor, c)
  else none

def tag? (c : Cursor) : Option (Directive × Cursor) := do
  let (mark, c) ← TagText.handle? c.skipBlanks
  if (mark.length > 1 && mark.getLast? ≠ some '!') || !c.sees 0 isBlank then none
  else
    let (start, c) ← TagText.readUri? true c.skipBlanks
    if start.isEmpty || !c.seesGapOrEnd 0 then none else pure (.handle mark start, c)

/-- Reads a directive and the rest of its line. -/
def read? (c : Cursor) : Option (Directive × Cursor) := do
  let name := (c.skip 1).takeWhile isWordChar
  let after := c.skip (1 + name.length)
  if name.isEmpty || !after.seesGapOrEnd 0 then none
  else
    let (directive, after) ←
      if name = "YAML".toList then version? after
      else if name = "TAG".toList then tag? after
      else none
    let after ← after.finishLine?
    pure (directive, after)

end Directive

end CloudAudit.Yaml
