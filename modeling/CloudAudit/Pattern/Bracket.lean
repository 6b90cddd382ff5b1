import CloudAudit.Pattern.Escape

/-!
Sets of characters written between brackets, with ranges, named sets, sets in sets and operations
on sets.
-/

namespace CloudAudit.Pattern

inductive SetOp where
  | inter
  | diff
  | symmetricDiff

def SetOp.apply : SetOp → CharSet → CharSet → CharSet
  | inter, a, b => .inter a b
  | diff, a, b => .diff a b
  | symmetricDiff, a, b => .symmetricDiff a b

/-- The named sets of ASCII characters. -/
def asciiSets : List (String × CharSet) :=
  [("alnum", .unionAll [.range '0' '9', .range 'A' 'Z', .range 'a' 'z']),
    ("alpha", .union (.range 'A' 'Z') (.range 'a' 'z')), ("ascii", .range '\x00' '\x7f'),
    ("blank", .ofChars ['\t', ' ']), ("cntrl", .union (.range '\x00' '\x1f') (.single '\x7f')),
    ("digit", .range '0' '9'), ("graph", .range '!' '~'), ("lower", .range 'a' 'z'),
    ("print", .range ' ' '~'), ("punct", .unionAll [.range '!' '/', .range ':' '@',
      .range '[' '\x60', .range '\x7b' '~']), ("space", asciiBlank), ("upper", .range 'A' 'Z'),
    ("word", asciiWord), ("xdigit", .unionAll [.range '0' '9', .range 'A' 'F', .range 'a' 'f'])]

/-- A named set of ASCII characters, after its opening bracket; none when it is something else. -/
def asciiSet? : List Char → Option (CharSet × List Char)
  | ':' :: rest =>
    let (negated, rest) := match rest with
      | '^' :: rest => (true, rest)
      | rest => (false, rest)
    let (name, rest) := rest.span (· ≠ ':')
    match rest with
    | ':' :: ']' :: rest => (asciiSets.lookup (String.ofList name)).map fun s =>
        (if negated then .complement s else s, rest)
    | _ => none
  | _ => none

/-- A character that may stand in a set; one that is no ASCII only in sets of all of Unicode. -/
def setChar? (f : Flags) (c : Char) : Option Char :=
  if f.unicode || c.toNat < 128 then some c else none

/-- One end of a range, or a set. -/
def setAtom (f : Flags) : List Char → Option (Atom × List Char)
  | [] => none
  | '\\' :: rest => escapeAtom f rest
  | c :: rest => some (.literal c false, rest)

def atomChar? (f : Flags) : Atom → Option Char
  | .literal c _ => setChar? f c
  | _ => none

def atomSet? (f : Flags) : Atom → Option CharSet
  | .literal c _ => (setChar? f c).map .single
  | .set s => some s
  | .look _ => none

/-- A single character, a set or a range. -/
def setRange (f : Flags) (cs : List Char) : Option (CharSet × List Char) := do
  let (first, rest) ← setAtom f cs
  match f.skip rest with
  | [] => none
  | '-' :: tail => match (f.skip tail).head? with
    | none => none
    | some c =>
      if c = ']' || c = '-' then
        let s ← atomSet? f first
        pure (s, f.skip rest)
      else
        let (last, rest) ← setAtom f (f.skip tail)
        let low ← atomChar? f first
        let high ← atomChar? f last
        if low ≤ high then pure (.range low high, rest) else none
  | rest =>
    let s ← atomSet? f first
    pure (s, rest)

/-- Sets read so far between two brackets: those after the last operation, and what stands before. -/
structure SetItems where
  negated : Bool
  items : List CharSet := []
  pending : Option (SetOp × CharSet) := none
  depth : Nat := 0

namespace SetItems

def add (p : SetItems) (s : CharSet) : SetItems := { p with items := s :: p.items }

/-- The set up to here, operations taken from left to right. -/
def value (f : Flags) (p : SetItems) : CharSet :=
  let right := CharSet.unionAll p.items.reverse
  match p.pending with
  | none => right
  | some (op, left) => op.apply (f.fold left) (f.fold right)

def operate (f : Flags) (p : SetItems) (op : SetOp) : SetItems :=
  { p with items := [], pending := some (op, p.value f), depth := p.depth + 1 }

/-- The finished set; a set of bytes is never everything but something. -/
def close (f : Flags) (p : SetItems) : Option CharSet :=
  let s := f.fold (p.value f)
  if !p.negated then some s else if f.unicode then some (.complement s) else none

end SetItems

/-- Hyphens at the start of a set, and a closing bracket there, stand for themselves. -/
def openHyphens (f : Flags) : Nat → SetItems → List Char → SetItems × List Char
  | 0, p, cs => (p, cs)
  | fuel + 1, p, cs => match cs with
    | '-' :: rest => openHyphens f fuel (p.add (.single '-')) (f.skip rest)
    | ']' :: rest => if p.items.isEmpty then (p.add (.single ']'), f.skip rest) else (p, cs)
    | cs => (p, cs)

/-- The start of a set, after its opening bracket. -/
def openSet (f : Flags) (cs : List Char) : SetItems × List Char :=
  match f.skip cs with
  | '^' :: rest => openHyphens f rest.length { negated := true } (f.skip rest)
  | cs => openHyphens f cs.length { negated := false } cs

/--
The rest of a set up to its closing bracket, with how deep sets stand in it. Each step takes a
character, so the length of the text is fuel enough.
-/
def closeSet (f : Flags) : Nat → SetItems → List Char → Option (CharSet × Nat × List Char)
  | 0, _, _ => none
  | fuel + 1, p, cs => match f.skip cs with
    | [] => none
    | ']' :: rest => (p.close f).map fun s => (s, p.depth + 1, rest)
    | '[' :: rest => match asciiSet? rest with
      | some (s, rest) => closeSet f fuel (p.add s) rest
      | none => do
        let (inner, rest) := openSet f rest
        let (s, depth, rest) ← closeSet f fuel inner rest
        closeSet f fuel { p.add s with depth := max p.depth depth } rest
    | '&' :: '&' :: rest => closeSet f fuel (p.operate f .inter) rest
    | '-' :: '-' :: rest => closeSet f fuel (p.operate f .diff) rest
    | '~' :: '~' :: rest => closeSet f fuel (p.operate f .symmetricDiff) rest
    | cs => do
      let (s, rest) ← setRange f cs
      closeSet f fuel (p.add s) rest

/-- A set after its opening bracket. -/
def bracketSet (f : Flags) (cs : List Char) : Option (CharSet × Nat × List Char) :=
  let (p, rest) := openSet f cs
  closeSet f (cs.length + 1) p rest

end CloudAudit.Pattern
