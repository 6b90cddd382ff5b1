import CloudAudit.Number.Text
import CloudAudit.Pattern.Basic

/-!
What a backslash starts in a written pattern: a character, a set of characters, or a look at a
place; and the names of sets.
-/

namespace CloudAudit.Pattern

/-- How the text of a pattern is read. Flags hold to the end of their group. -/
structure Flags where
  /-- Letters stand for both cases. -/
  insensitive : Bool := false
  /-- `^` and `$` hold at every line. -/
  multiLine : Bool := false
  /-- `.` stands for line ends too. -/
  dotAll : Bool := false
  /-- Sets are those of all of Unicode, else those of ASCII. -/
  unicode : Bool := true
  /-- Lines may end in a carriage return. -/
  returns : Bool := false
  /-- Blanks and comments in the pattern mean nothing. -/
  spacing : Bool := false
  deriving DecidableEq

/-- A name of digits, letters and underscores of ASCII. -/
def asciiWord : CharSet :=
  .unionAll [.range '0' '9', .range 'A' 'Z', .range 'a' 'z', .single '_']

def asciiBlank : CharSet := .ofChars ['\t', '\n', '\x0b', '\x0c', '\r', ' ']

/-- Characters of words, as the flags have it. -/
def Flags.words (f : Flags) : CharSet := if f.unicode then .word else asciiWord

/-- A set with the other case of its letters, where case means nothing. -/
def Flags.fold (f : Flags) (s : CharSet) : CharSet :=
  if !f.insensitive then s else if f.unicode then .folded s else .foldedAscii s

/-- The rest after blanks and comments, where they mean nothing. The fuel bounds the comments. -/
def skipComments : Nat → List Char → List Char
  | 0, cs => cs
  | fuel + 1, cs => match cs.dropWhile Text.isBlank with
    | '#' :: rest => skipComments fuel ((rest.dropWhile (· ≠ '\n')).drop 1)
    | rest => rest

def Flags.skip (f : Flags) (cs : List Char) : List Char :=
  if f.spacing then skipComments cs.length cs else cs

/-- One piece of a pattern. -/
inductive Atom where
  /-- A character; `byte` for one written by the value of a byte. -/
  | literal (c : Char) (byte : Bool)
  | set (s : CharSet)
  | look (l : Look)

/-- Names of general categories, long and short. -/
def categoryNames : List (String × String) :=
  [("letter", "L"), ("uppercaseletter", "Lu"), ("lowercaseletter", "Ll"),
    ("titlecaseletter", "Lt"), ("modifierletter", "Lm"), ("otherletter", "Lo"), ("mark", "M"),
    ("combiningmark", "M"), ("nonspacingmark", "Mn"), ("spacingmark", "Mc"),
    ("enclosingmark", "Me"), ("number", "N"), ("decimalnumber", "Nd"), ("digit", "Nd"),
    ("letternumber", "Nl"), ("othernumber", "No"), ("punctuation", "P"), ("punct", "P"),
    ("connectorpunctuation", "Pc"), ("dashpunctuation", "Pd"), ("openpunctuation", "Ps"),
    ("closepunctuation", "Pe"), ("initialpunctuation", "Pi"), ("finalpunctuation", "Pf"),
    ("otherpunctuation", "Po"), ("symbol", "S"), ("mathsymbol", "Sm"), ("currencysymbol", "Sc"),
    ("modifiersymbol", "Sk"), ("othersymbol", "So"), ("separator", "Z"), ("spaceseparator", "Zs"),
    ("lineseparator", "Zl"), ("paragraphseparator", "Zp"), ("other", "C"), ("control", "Cc"),
    ("cntrl", "Cc"), ("format", "Cf"), ("privateuse", "Co"), ("unassigned", "Cn")]

def shortCategories : List String := (categoryNames.map (·.2)).eraseDups

/-- The set of a general category, by its long or short name. -/
def categorySet? (folded : String) : Option CharSet :=
  if folded = "any" then some .any
  else if folded = "ascii" then some (.range '\x00' '\x7f')
  else if folded = "assigned" then some (.complement (.category "Cn"))
  else if folded = "lc" || folded = "casedletter" then
    some (.unionAll [.category "Lu", .category "Ll", .category "Lt"])
  else match categoryNames.lookup folded with
    | some short => some (.category short)
    | none => (shortCategories.find? fun s => String.ofList (s.toList.map Char.toLower) = folded).map
        .category

/-- A name without case, blanks, hyphens, underscores and a leading `is`. -/
def foldName (name : List Char) : String :=
  let folded := (name.map Char.toLower).filter fun c => c ≠ ' ' && c ≠ '-' && c ≠ '_'
  match folded with
  | 'i' :: 's' :: rest => String.ofList (if rest = [] then folded else rest)
  | _ => String.ofList folded

/-- The set of a script by its name. -/
def scriptSet? (folded : String) : Option CharSet := (Text.scriptNames.lookup folded).map .script

/-- The set of a property that needs no value. -/
def ownSet? (folded : String) : Option CharSet :=
  match folded with
  | "alphabetic" | "alpha" => some .letter
  | "lowercase" | "lower" => some .small
  | "uppercase" | "upper" => some .capital
  | "whitespace" | "wspace" | "space" => some .blank
  | _ => none

/-- The set of a property by its name, alone or with a value. -/
def propertySet? (name : List Char) : Option CharSet :=
  let (key, rest) := name.span fun c => c ≠ '=' && c ≠ ':'
  match rest with
  | [] =>
    let folded := foldName name
    (ownSet? folded).or ((categorySet? folded).or (scriptSet? folded))
  | _ :: value =>
    let negated := key.getLast? = some '!'
    let value := foldName value
    let found := match foldName (if negated then key.dropLast else key) with
      | "gc" | "generalcategory" | "category" => categorySet? value
      | "sc" | "script" => scriptSet? value
      | _ => none
    found.map fun s => if negated then .complement s else s

/-- The sets that have a letter of their own. -/
def letterSet? (f : Flags) (c : Char) : Option CharSet :=
  match c.toLower with
  | 'd' => some (if f.unicode then .category "Nd" else .range '0' '9')
  | 's' => some (if f.unicode then .blank else asciiBlank)
  | 'w' => some f.words
  | _ => none

def isHex (c : Char) : Bool := c.isDigit || ('a' ≤ c && c ≤ 'f') || ('A' ≤ c && c ≤ 'F')

def hexDigit (c : Char) : Nat :=
  if c.isDigit then c.toNat - 48 else if c.toNat < 97 then c.toNat - 55 else c.toNat - 87

/-- The character with a code point in hexadecimal digits. -/
def hexChar? (digits : List Char) : Option Char :=
  let n := digits.foldl (fun n c => 16 * n + hexDigit c) 0
  if digits ≠ [] ∧ (n < 0xd800 ∨ (0xdfff < n ∧ n < 0x110000)) then some (Char.ofNat n) else none

/-- As many hexadecimal digits as asked for. -/
def takeHex (f : Flags) : Nat → List Char → Option (List Char × List Char)
  | 0, cs => some ([], cs)
  | _ + 1, [] => none
  | count + 1, c :: rest =>
    if isHex c then (takeHex f count (f.skip rest)).map fun (ds, rest) => (c :: ds, rest) else none

/-- Hexadecimal digits up to a closing brace. -/
def takeBraced (f : Flags) (cs : List Char) : Option (List Char × List Char) :=
  let (inside, rest) := cs.span (· ≠ '\x7d')
  let digits := inside.filter fun c => !(f.spacing && Text.isBlank c)
  match rest with
  | _ :: rest => if digits.all isHex then some (digits, f.skip rest) else none
  | [] => none

/-- A character by its code point, after the letter that says how many digits there are. -/
def hexAtom (f : Flags) (count : Nat) (cs : List Char) : Option (Atom × List Char) := do
  match f.skip cs with
  | '\x7b' :: rest =>
    let (digits, rest) ← takeBraced f rest
    let c ← hexChar? digits
    pure (.literal c false, rest)
  | cs =>
    let (digits, rest) ← takeHex f count cs
    let c ← hexChar? digits
    pure (.literal c (count = 2), rest)

/-- A set by property, after the letter `p`; a capital letter stands for all other characters. -/
def propertyAtom (f : Flags) (negated : Bool) (cs : List Char) : Option (Atom × List Char) := do
  if !f.unicode then none
  let (name, rest) ← match f.skip cs with
    | [] => none
    | '\\' :: _ => none
    | '\x7b' :: rest => match rest.span (· ≠ '\x7d') with
      | (name, _ :: rest) => some (name, rest)
      | (_, []) => none
    | c :: rest => some ([c], f.skip rest)
  let s := f.fold (← propertySet? name)
  pure (.set (if negated then .complement s else s), rest)

/-- Characters that have a meaning of their own somewhere in a pattern. -/
def isMeta (c : Char) : Bool := "\\.+*?()|[]\x7b\x7d^$#&-~".toList.contains c

/-- The kinds of half and whole word boundaries that have names. -/
def namedBoundary? (words : CharSet) (name : List Char) : Option Look :=
  match String.ofList name with
  | "start" => some (.wordStart words)
  | "end" => some (.wordEnd words)
  | "start-half" => some (.startHalf words)
  | "end-half" => some (.endHalf words)
  | _ => none

/-- A word boundary; a brace after it starts the name of its kind or a repetition. -/
def boundaryAtom (f : Flags) (cs : List Char) : Option (Atom × List Char) :=
  let isNameChar (c : Char) := c.isAlpha || c = '-'
  match cs with
  | '\x7b' :: rest => match f.skip rest with
    | [] => none
    | c :: more =>
      if !isNameChar c then some (.look (.boundary f.words), cs)
      else
        let (name, rest) := (c :: more).span fun c => isNameChar c || (f.spacing && Text.isBlank c)
        match rest with
        | '\x7d' :: rest =>
          (namedBoundary? f.words (name.filter isNameChar)).map fun l => (.look l, rest)
        | _ => none
  | _ => some (.look (.boundary f.words), cs)

/-- The piece after a backslash. -/
def escapeAtom (f : Flags) : List Char → Option (Atom × List Char)
  | [] => none
  | c :: rest =>
    match letterSet? f c with
    | some s =>
      if c.isUpper then if f.unicode then some (.set (.complement s), rest) else none
      else some (.set s, rest)
    | none =>
      let plain (d : Char) : Option (Atom × List Char) := some (.literal d false, rest)
      match c with
      | 'x' => hexAtom f 2 rest
      | 'u' => hexAtom f 4 rest
      | 'U' => hexAtom f 8 rest
      | 'p' => propertyAtom f false rest
      | 'P' => propertyAtom f true rest
      | 'a' => plain '\x07'
      | 'f' => plain '\x0c'
      | 't' => plain '\t'
      | 'n' => plain '\n'
      | 'r' => plain '\r'
      | 'v' => plain '\x0b'
      | 'A' => some (.look .textStart, rest)
      | 'z' => some (.look .textEnd, rest)
      | 'b' => boundaryAtom f rest
      | 'B' => some (.look (.noBoundary f.words), rest)
      | '<' => some (.look (.wordStart f.words), rest)
      | '>' => some (.look (.wordEnd f.words), rest)
      | _ =>
        if isMeta c || (c.toNat < 128 && !c.isAlphanum) then plain c else none

end CloudAudit.Pattern
