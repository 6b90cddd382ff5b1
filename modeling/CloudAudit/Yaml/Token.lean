import CloudAudit.Yaml.Scalar
import CloudAudit.Yaml.Tag

/-!
YAML text as tokens. Indentation becomes explicit: a block collection has tokens for its start and
its end, and the key of a mapping is marked once its colon is seen.
-/

namespace CloudAudit.Yaml

inductive Token where
  | directive (d : Directive)
  | documentStart
  | documentEnd
  | blockSequenceStart
  | blockMappingStart
  | blockEnd
  | flowSequenceStart
  | flowSequenceEnd
  | flowMappingStart
  | flowMappingEnd
  | blockEntry
  | flowEntry
  | key
  | value
  | alias (name : String)
  | anchor (name : String)
  | tag (t : TagText)
  | scalar (text : String) (plain : Bool)

/-- A place where a key without a mark may have started. -/
structure KeyPlace where
  possible : Bool := false
  /-- Nothing but a key may stand there. -/
  required : Bool := false
  /-- How many tokens came before. -/
  position : Nat := 0
  index : Nat := 0
  line : Nat := 0
  column : Nat := 0

/-- State between two tokens. -/
structure Lexer where
  cursor : Cursor
  tokens : Array Token := #[]
  indent : Int := -1
  /-- Indentations around the current one. -/
  outer : List Int := []
  /-- The place of a key in the innermost collection, then those around it. -/
  place : KeyPlace := {}
  places : List KeyPlace := []
  keyAllowed : Bool := true

namespace Lexer

def flow (s : Lexer) : Bool := !s.places.isEmpty

def emit (s : Lexer) (t : Token) : Lexer := { s with tokens := s.tokens.push t }

def emitAt (s : Lexer) (position : Nat) (t : Token) : Lexer :=
  { s with tokens := s.tokens.insertIdxIfInBounds position t }

/-- Emits a token that takes `n` characters. -/
def take (s : Lexer) (n : Nat) (t : Token) : Lexer :=
  { s.emit t with cursor := s.cursor.skip n }

/-- Gaps and comments before a token. A new line may start a key, outside flow collections. -/
def skipGaps : Nat → Lexer → Lexer
  | 0, s => s
  | fuel + 1, s =>
    let c := s.cursor
    let c := if c.column == 0 && c.sees 0 isMark then c.skip 1 else c
    let tabs := s.flow || !s.keyAllowed
    let c := (c.skipWhile fun x => x = ' ' || (tabs && x = '\t')).skipComment
    if c.sees 0 isBreak then
      skipGaps fuel { s with cursor := c.skipBreak, keyAllowed := s.keyAllowed || !s.flow }
    else { s with cursor := c }

/-- A key must be within one line and 1024 characters. -/
def expire? (c : Cursor) (p : KeyPlace) : Option KeyPlace :=
  if p.possible && (p.line < c.line || p.index + 1024 < c.index) then
    if p.required then none else some { p with possible := false }
  else some p

def expireAll? (s : Lexer) : Option Lexer := do
  let place ← expire? s.cursor s.place
  let places ← s.places.mapM (expire? s.cursor)
  pure { s with place, places }

/-- Closes the block collections right of a column. -/
def closeBlocksAux : List Int → Int → Lexer → Lexer
  | [], _, s => s
  | i :: rest, column, s =>
    if column < s.indent then closeBlocksAux rest column { s.emit .blockEnd with indent := i, outer := rest }
    else s

def closeBlocks (s : Lexer) (column : Int) : Lexer :=
  if s.flow then s else closeBlocksAux s.outer column s

/-- Opens a block collection at a column right of the current one. -/
def openBlock (s : Lexer) (column position : Nat) (t : Token) : Lexer :=
  if !s.flow && s.indent < column then
    { s.emitAt position t with outer := s.indent :: s.outer, indent := column }
  else s

/-- Gives up the place of a key; none when only a key could stand there. -/
def dropPlace? (s : Lexer) : Option Lexer :=
  if s.place.possible && s.place.required then none
  else some { s with place := { s.place with possible := false } }

/-- Notes that a key may start here. -/
def notePlace? (s : Lexer) : Option Lexer :=
  if s.keyAllowed then do
    let s ← s.dropPlace?
    let c := s.cursor
    pure { s with place := {
      possible := true, required := !s.flow && s.indent = c.column, position := s.tokens.size,
      index := c.index, line := c.line, column := c.column } }
  else some s

def directive? (s : Lexer) : Option Lexer := do
  let s ← (s.closeBlocks (-1)).dropPlace?
  let (d, c) ← Directive.read? s.cursor
  pure { s.emit (.directive d) with cursor := c, keyAllowed := false }

def documentMarker? (s : Lexer) (t : Token) : Option Lexer := do
  let s ← (s.closeBlocks (-1)).dropPlace?
  pure { s.take 3 t with keyAllowed := false }

def flowStart? (s : Lexer) (t : Token) : Option Lexer := do
  let s ← s.notePlace?
  pure { s.take 1 t with place := {}, places := s.place :: s.places, keyAllowed := true }

def flowEnd? (s : Lexer) (t : Token) : Option Lexer := do
  let s ← s.dropPlace?
  let s := s.take 1 t
  match s.places with
  | [] => pure { s with keyAllowed := false }
  | place :: places => pure { s with place, places, keyAllowed := false }

def flowEntry? (s : Lexer) : Option Lexer := do
  let s ← s.dropPlace?
  pure { s.take 1 .flowEntry with keyAllowed := true }

def blockEntry? (s : Lexer) : Option Lexer := do
  if !s.flow && !s.keyAllowed then none
  let s ← (s.openBlock s.cursor.column s.tokens.size .blockSequenceStart).dropPlace?
  pure { s.take 1 .blockEntry with keyAllowed := true }

def key? (s : Lexer) : Option Lexer := do
  if !s.flow && !s.keyAllowed then none
  let s ← (s.openBlock s.cursor.column s.tokens.size .blockMappingStart).dropPlace?
  pure { s.take 1 .key with keyAllowed := !s.flow }

def value? (s : Lexer) : Option Lexer :=
  if s.place.possible then
    let s := (s.emitAt s.place.position .key).openBlock s.place.column s.place.position
      .blockMappingStart
    some { s.take 1 .value with place := { s.place with possible := false }, keyAllowed := false }
  else if !s.flow && !s.keyAllowed then none
  else
    let s := s.openBlock s.cursor.column s.tokens.size .blockMappingStart
    some { s.take 1 .value with keyAllowed := !s.flow }

def named? (s : Lexer) (make : String → Token) : Option Lexer := do
  let s ← s.notePlace?
  let (name, c) ← anchorName? s.cursor
  pure { s.emit (make name) with cursor := c, keyAllowed := false }

def tag? (s : Lexer) : Option Lexer := do
  let s ← s.notePlace?
  let (t, c) ← TagText.read? s.flow s.cursor
  pure { s.emit (.tag t) with cursor := c, keyAllowed := false }

def scalar (s : Lexer) (t : ScalarText) (plain : Bool) : Lexer :=
  { s.emit (.scalar (String.ofList t.text) plain) with cursor := t.cursor, keyAllowed := t.onNewLine }

def block? (s : Lexer) (literal : Bool) : Option Lexer := do
  let s ← s.dropPlace?
  let t ← blockScalar? literal s.indent s.cursor
  pure (s.scalar t false)

def quoted? (s : Lexer) (double : Bool) : Option Lexer := do
  let s ← s.notePlace?
  let t ← quotedScalar? double s.cursor
  pure (s.scalar t false)

def plain? (s : Lexer) : Option Lexer := do
  let s ← s.notePlace?
  let t ← plainScalar? s.flow (s.indent + 1).toNat s.cursor
  pure (s.scalar t true)

/-- Characters that start no plain scalar by themselves. -/
def indicators : List Char := "-?:,[]\x7b\x7d#&*!|>'\"%@`".toList

def startsPlain (s : Lexer) : Bool :=
  let c := s.cursor
  (c.sees 0 fun x => !isGap x && !indicators.contains x) ||
    (c.seesChar 0 '-' && (c.ahead? 1).all (!isBlank ·)) ||
    (!s.flow && (c.seesChar 0 '?' || c.seesChar 0 ':') && !c.seesGapOrEnd 1)

/-- Reads the token at the cursor; none when no token starts there. -/
def token? (s : Lexer) (x : Char) : Option Lexer :=
  let c := s.cursor
  if c.column == 0 && x = '%' then s.directive?
  else if c.seesMarker '-' then s.documentMarker? .documentStart
  else if c.seesMarker '.' then s.documentMarker? .documentEnd
  else if x = '[' then s.flowStart? .flowSequenceStart
  else if x = '\x7b' then s.flowStart? .flowMappingStart
  else if x = ']' then s.flowEnd? .flowSequenceEnd
  else if x = '\x7d' then s.flowEnd? .flowMappingEnd
  else if x = ',' then s.flowEntry?
  else if x = '-' && c.seesGapOrEnd 1 then s.blockEntry?
  else if x = '?' && (s.flow || c.seesGapOrEnd 1) then s.key?
  else if x = ':' && (s.flow || c.seesGapOrEnd 1) then s.value?
  else if x = '*' then s.named? .alias
  else if x = '&' then s.named? .anchor
  else if x = '!' then s.tag?
  else if x = '|' && !s.flow then s.block? true
  else if x = '>' && !s.flow then s.block? false
  else if x = '\'' then s.quoted? false
  else if x = '"' then s.quoted? true
  else if s.startsPlain then s.plain?
  else none

/-- All tokens from here on. Each takes a character, so the fuel is the number of characters. -/
def run? : Nat → Lexer → Option (List Token)
  | 0, _ => none
  | fuel + 1, s => do
    let s ← (skipGaps (s.cursor.rest.length + 1) s).expireAll?
    let s := s.closeBlocks s.cursor.column
    match s.cursor.ahead? 0 with
    | none =>
      let s ← (s.closeBlocks (-1)).dropPlace?
      pure s.tokens.toList
    | some x =>
      let s ← s.token? x
      run? fuel s

end Lexer

/-- Tokens of a text. A byte order mark may start it; control characters are a defect. -/
def Token.ofText? (text : String) : Option (List Token) :=
  let cs := text.toList
  let body := if cs.head?.any isMark then cs.drop 1 else cs
  if body.all isPermitted then Lexer.run? (body.length + 1) { cursor := { rest := body } } else none

end CloudAudit.Yaml
