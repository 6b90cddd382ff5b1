/-!
Parts of texts: blanks at the ends, what is left without a given start or end, and texts that
stand in a text.
-/

namespace CloudAudit.Text

/-! Blank characters: the Unicode property `White_Space`. -/

/-- The code points with the Unicode property `White_Space`. -/
def isBlank (c : Char) : Bool :=
  let n := c.toNat
  (0x09 ≤ n && n ≤ 0x0d) || n == 0x20 || n == 0x85 || n == 0xa0 || n == 0x1680 ||
    (0x2000 ≤ n && n ≤ 0x200a) || n == 0x2028 || n == 0x2029 || n == 0x202f || n == 0x205f ||
    n == 0x3000

def trimStart (cs : List Char) : List Char := cs.dropWhile isBlank

def trimEnd (cs : List Char) : List Char := (cs.reverse.dropWhile isBlank).reverse

/-- Without blanks at either end. -/
def trim (cs : List Char) : List Char := trimEnd (trimStart cs)

/-- Text without blanks at either end. -/
def trimmed (s : String) : String := String.ofList (trim s.toList)

/-- No character but blanks. -/
def allBlank (s : String) : Bool := s.toList.all isBlank

/-! Starts and ends. -/

/-- The rest after a given start. -/
def afterPrefix? : List Char → List Char → Option (List Char)
  | [], cs => some cs
  | _ :: _, [] => none
  | p :: ps, c :: cs => if p = c then afterPrefix? ps cs else none

/-- The rest before a given end. -/
def beforeSuffix? (suffix cs : List Char) : Option (List Char) :=
  (afterPrefix? suffix.reverse cs.reverse).map List.reverse

theorem afterPrefix?_eq_some_iff {ps cs rest : List Char} :
    afterPrefix? ps cs = some rest ↔ cs = ps ++ rest := by
  induction ps generalizing cs with
  | nil => simp [afterPrefix?]
  | cons p ps ih =>
    cases cs with
    | nil => simp [afterPrefix?]
    | cons c cs =>
      by_cases h : p = c
      · simp [afterPrefix?, h, ih]
      · simp [afterPrefix?, h, Ne.symm h]

theorem beforeSuffix?_eq_some_iff {suffix cs rest : List Char} :
    beforeSuffix? suffix cs = some rest ↔ cs = rest ++ suffix := by
  simp only [beforeSuffix?, Option.map_eq_some_iff, afterPrefix?_eq_some_iff]
  constructor
  · rintro ⟨front, h, rfl⟩
    rw [← List.reverse_reverse cs, h]
    simp
  · rintro rfl
    exact ⟨rest.reverse, by simp, by simp⟩

/-! Searching a text in a text. -/

/-- Whether `needle` stands somewhere in a list of characters. -/
def isInfix (needle : List Char) : List Char → Bool
  | [] => needle.isEmpty
  | c :: rest => needle.isPrefixOf (c :: rest) || isInfix needle rest

def contains (text needle : String) : Bool := isInfix needle.toList text.toList

end CloudAudit.Text
