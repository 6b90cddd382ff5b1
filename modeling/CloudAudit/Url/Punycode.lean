/-!
Labels of domains in ASCII: a label with other characters is written as its ASCII characters and the
places of the others, in digits of base 36 whose weights adapt.
-/

namespace CloudAudit.Punycode

/-- Digits are letters and then decimal digits. -/
def digit (d : Nat) : Char := if d < 26 then Char.ofNat (97 + d) else Char.ofNat (22 + d)

/-- The least value of a digit that is not the last one. -/
def threshold (position bias : Nat) : Nat := min 26 (max 1 (position - bias))

/-- A number from its least digit on; the fuel bounds the digits. -/
def digits (bias : Nat) : Nat → Nat → Nat → List Char
  | 0, _, _ => []
  | fuel + 1, position, n =>
    let t := threshold position bias
    if n < t then [digit n]
    else digit (t + (n - t) % (36 - t)) :: digits bias fuel (position + 36) ((n - t) / (36 - t))

/-- Brings a difference into the range of small biases; the fuel bounds the divisions. -/
def shrink : Nat → Nat → Nat → Nat
  | 0, k, _ => k
  | fuel + 1, k, delta =>
    if 455 < delta then shrink fuel (k + 36) (delta / 35) else k + 36 * delta / (delta + 38)

/-- The bias after a difference was written. -/
def adapt (delta count : Nat) (first : Bool) : Nat :=
  let delta := if first then delta / 700 else delta / 2
  shrink 64 0 (delta + delta / count)

/-- What is written so far: digits, the difference to the next place, bias and characters done. -/
structure State where
  out : List Char
  delta : Nat
  bias : Nat
  count : Nat

/-- Goes through the characters for one code point; `basic` of them are ASCII. -/
def visit (basic n : Nat) (s : State) (c : Char) : State :=
  if c.toNat < n then { s with delta := s.delta + 1 }
  else if c.toNat = n then
    { out := s.out ++ digits s.bias 64 36 s.delta, delta := 0,
      bias := adapt s.delta (s.count + 1) (s.count = basic), count := s.count + 1 }
  else s

/-- Writes the characters of all given code points, which ascend from above `n` on. -/
def writeAll (cs : List Char) (basic : Nat) : List Nat → Nat → State → State
  | [], _, s => s
  | m :: rest, n, s =>
    let s := cs.foldl (visit basic m) { s with delta := s.delta + (m - n) * (s.count + 1) }
    writeAll cs basic rest (m + 1) { s with delta := s.delta + 1 }

def encode (cs : List Char) : List Char :=
  let ascii := cs.filter (·.toNat < 128)
  let others := ((cs.filter (128 ≤ ·.toNat)).map Char.toNat).eraseDups.mergeSort
  let start := if ascii = [] then [] else ascii ++ ['-']
  (writeAll cs ascii.length others 128 ⟨start, 0, 72, ascii.length⟩).out

/-- A label in ASCII. -/
def asciiLabel (label : List Char) : List Char :=
  if label.all (·.toNat < 128) then label else "xn--".toList ++ encode label

end CloudAudit.Punycode
