import CloudAudit.Number.Text
import CloudAudit.Text.Fold
import CloudAudit.Url.Percent
import CloudAudit.Url.Punycode

/-!
Hosts of URLs: domains and addresses.
-/

namespace CloudAudit

-- Powers are core's, also where an algebra library is imported.
attribute [local instance (high)] instPowNat

/-- Why a text is no URL. -/
inductive UrlError where
  | emptyHost
  | invalidDomain
  | invalidPort
  | invalidAddress4
  | invalidAddress6
  | invalidHostCharacter
  /-- There is no scheme. -/
  | relative
  deriving DecidableEq, Repr

namespace UrlError

def message : UrlError → String
  | emptyHost => "empty host"
  | invalidDomain => "invalid international domain name"
  | invalidPort => "invalid port number"
  | invalidAddress4 => "invalid IPv4 address"
  | invalidAddress6 => "invalid IPv6 address"
  | invalidHostCharacter => "invalid domain character"
  | relative => "relative URL without a base"

end UrlError

namespace Url

inductive Host where
  | domain (name : String)
  /-- An address of 32 bits. -/
  | address4 (n : Nat)
  /-- Eight pieces of 16 bits. -/
  | address6 (pieces : List Nat)
  deriving DecidableEq, Repr

/-- Pieces between separators; there is always one. -/
def splitAll (separator : Char) : List Char → List (List Char)
  | [] => [[]]
  | c :: rest =>
    if c = separator then [] :: splitAll separator rest
    else match splitAll separator rest with
      | [] => [[c]]
      | piece :: more => (c :: piece) :: more

/-! Addresses of 32 bits. -/

/-- Value of digits in a base. -/
def digitsValue? (base : Nat) (cs : List Char) : Option Nat :=
  cs.foldl (fun n c => do
    let n ← n
    let d ← hexValue? c
    if d < base then some (base * n + d) else none) (some 0)

/-- A number in decimal, after `0x` in hexadecimal and after another `0` in octal digits. -/
def addressNumber? : List Char → Option Nat
  | [] => none
  | '0' :: 'x' :: rest | '0' :: 'X' :: rest => digitsValue? 16 rest
  | '0' :: d :: rest => digitsValue? 8 (d :: rest)
  | cs => digitsValue? 10 cs

/-- Whether the last label of a domain is a number, so that it must be an address. -/
def endsInNumber (cs : List Char) : Bool :=
  let labels := (splitAll '.' cs).reverse
  let last := match labels with
    | [] :: rest => rest.head?
    | labels => labels.head?
  match last with
  | none => false
  | some l => (l ≠ [] && l.all Number.isDigit) || (addressNumber? l).isSome

/-- The value of numbers, the last one filling all bytes that are left. -/
def addressValue? (count : Nat) : List Nat → Option Nat
  | [] => none
  | [last] => if last < 256 ^ (4 - count) then some last else none
  | n :: rest =>
    if n < 256 then (addressValue? (count + 1) rest).map (n * 256 ^ (3 - count) + ·) else none

def address4? (cs : List Char) : Option Nat := do
  let labels := splitAll '.' cs
  let labels := if labels.getLast? = some [] then labels.dropLast else labels
  if 4 < labels.length then none
  else addressValue? 0 (← labels.mapM addressNumber?)

def renderAddress4 (n : Nat) : String :=
  toString (n / 256 ^ (3 : Nat)) ++ "." ++ toString (n / 256 ^ (2 : Nat) % 256) ++ "." ++
    toString (n / 256 % 256) ++ "." ++ toString (n % 256)

/-! Addresses of 128 bits. -/

/-- A decimal byte without leading zeros. -/
def decimalByte? (cs : List Char) : Option Nat :=
  if cs.head? = some '0' && 1 < cs.length then none
  else (Number.natural? cs).filter (· < 256)

/-- Two pieces from four decimal bytes. -/
def dottedPieces? (cs : List Char) : Option (List Nat) :=
  match (splitAll '.' cs).mapM decimalByte? with
  | some [a, b, c, d] => some [256 * a + b, 256 * c + d]
  | _ => none

/-- Up to four hexadecimal digits. -/
def hexPiece? (cs : List Char) : Option Nat :=
  if cs = [] || 4 < cs.length then none else digitsValue? 16 cs

/-- Pieces between colons, of which the last two may be written as decimal bytes. -/
def groupPieces? : List (List Char) → Option (List Nat)
  | [] => some []
  | [last] => if last.contains '.' then dottedPieces? last else (hexPiece? last).map ([·])
  | g :: rest => do
    let p ← hexPiece? g
    let ps ← groupPieces? rest
    pure (p :: ps)

def sidePieces? (cs : List Char) : Option (List Nat) :=
  if cs = [] then some [] else groupPieces? (splitAll ':' cs)

/-- Cuts at the first two colons in a row. -/
def cutAtGap : List Char → Option (List Char × List Char)
  | ':' :: ':' :: rest => some ([], rest)
  | c :: rest => (cutAtGap rest).map fun (before, after) => (c :: before, after)
  | [] => none

/-- Two colons in a row stand for as many zeros as are missing, one at least. -/
def address6? (cs : List Char) : Option (List Nat) :=
  match cutAtGap cs with
  | none => (sidePieces? cs).filter (·.length = 8)
  | some (before, after) => do
    if before.contains '.' then none
    let left ← sidePieces? before
    let right ← sidePieces? after
    if left.length + right.length < 8 then
      some (left ++ List.replicate (8 - left.length - right.length) 0 ++ right)
    else none

/-- Length of the run of zeros that a list starts with. -/
def zeroRun (pieces : List Nat) : Nat := (pieces.takeWhile (· = 0)).length

/-- Start and length of the first longest run of zeros, if it is of two or more. -/
def longestZeros (pieces : List Nat) : Option (Nat × Nat) :=
  let runs := (List.range pieces.length).map fun i => (i, zeroRun (pieces.drop i))
  runs.foldl (fun best (i, n) =>
    if 2 ≤ n && (match best with
      | none => true
      | some (_, m) => m < n) then some (i, n) else best) none

def hexText (n : Nat) : String := String.ofList (Nat.toDigits 16 n)

def renderPieces (pieces : List Nat) : String := String.intercalate ":" (pieces.map hexText)

/-- The longest run of zeros is left out between two colons. -/
def renderAddress6 (pieces : List Nat) : String :=
  match longestZeros pieces with
  | none => renderPieces pieces
  | some (start, length) =>
    renderPieces (pieces.take start) ++ "::" ++ renderPieces (pieces.drop (start + length))

namespace Host

def render : Host → String
  | domain name => name
  | address4 n => renderAddress4 n
  | address6 pieces => "[" ++ renderAddress6 pieces ++ "]"

end Host

/-- Characters that no domain may have. -/
def isForbiddenInDomain (c : Char) : Bool :=
  c.toNat ≤ 32 || c.toNat = 127 || "%#/:<>?@[\\]^|".toList.contains c

/-- A domain in lower case, its labels in ASCII. -/
def asciiDomain? (cs : List Char) : Option (List Char) :=
  let lowered := cs.map fun c => Char.ofNat (Text.foldCode c.toNat)
  if lowered.any isForbiddenInDomain then none
  else some (List.intercalate ['.'] ((splitAll '.' lowered).map Punycode.asciiLabel))

/-- An address between brackets, after the opening one. -/
def bracketed? (cs : List Char) : Except UrlError Host :=
  if cs.getLast? = some ']' then match address6? cs.dropLast with
    | some pieces => .ok (.address6 pieces)
    | none => .error .invalidAddress6
  else .error .invalidAddress6

/-- The host of a scheme that knows domains. -/
def parseHost : List Char → Except UrlError Host
  | '[' :: rest => bracketed? rest
  | cs => match (decode? cs).bind asciiDomain? with
    | none => .error .invalidDomain
    | some [] => .error .emptyHost
    | some domain =>
      if endsInNumber domain then match address4? domain with
        | some n => .ok (.address4 n)
        | none => .error .invalidAddress4
      else .ok (.domain (String.ofList domain))

/-- The host of any other scheme, taken as it is. -/
def parseOpaqueHost : List Char → Except UrlError Host
  | '[' :: rest => bracketed? rest
  | cs =>
    if cs.any fun c => c = '\x00' || " \t\n\r#/:<>?@[\\]^|".toList.contains c then
      .error .invalidHostCharacter
    else .ok (.domain (String.ofList (encode isControl cs)))

end Url

end CloudAudit
