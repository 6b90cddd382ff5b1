import CloudAudit.Text.Affix
import CloudAudit.Text.Fold
import CloudAudit.Text.Letter
import CloudAudit.Text.Script

/-!
Regular expressions over characters, and searching a text for them. An expression may look at the
characters around a place without consuming them. The search keeps the expressions that are left to
match and takes each by its partial derivatives from one character to the next.
-/

namespace CloudAudit.Pattern

/-- A set of characters, as an expression over simple sets. -/
inductive CharSet where
  | none
  | range (low high : Char)
  /-- Characters of a general category. -/
  | category (name : String)
  /-- Characters of a script, by its four letters. -/
  | script (code : String)
  | word
  | letter
  | small
  | capital
  | blank
  | union (a b : CharSet)
  | inter (a b : CharSet)
  | complement (a : CharSet)
  /-- With every character also those that differ in case only. -/
  | folded (a : CharSet)
  /-- The same for ASCII letters only. -/
  | foldedAscii (a : CharSet)
  deriving DecidableEq, Inhabited

namespace CharSet

/-- The other case of an ASCII letter. -/
def swapAscii (c : Char) : Char := if c.isUpper then c.toLower else c.toUpper

def contains : CharSet → Char → Bool
  | none, _ => false
  | range low high, c => low ≤ c && c ≤ high
  | category name, c => Text.inCategory name c
  | script code, c => Text.script c = code
  | word, c => Text.isWordChar c
  | letter, c => Text.isLetter c
  | small, c => Text.isSmall c
  | capital, c => Text.isCapital c
  | blank, c => Text.isBlank c
  | union a b, c => contains a c || contains b c
  | inter a b, c => contains a c && contains b c
  | complement a, c => !contains a c
  | folded a, c => (Text.caseClass c).any fun d => contains a d
  | foldedAscii a, c => contains a c || contains a (swapAscii c)

def single (c : Char) : CharSet := range c c

/-- All characters of all sets of a list. -/
def unionAll (sets : List CharSet) : CharSet := sets.foldr union none

def ofChars (cs : List Char) : CharSet := unionAll (cs.map single)

/-- Every character. -/
def any : CharSet := range '\x00' (Char.ofNat 0x10ffff)

/-- Characters that are in the first set and not in the second. -/
def diff (a b : CharSet) : CharSet := inter a (complement b)

/-- Characters that are in exactly one of two sets. -/
def symmetricDiff (a b : CharSet) : CharSet := union (diff a b) (diff b a)

end CharSet

/-- The characters on both sides of a place in a text. -/
structure Gap where
  before : Option Char
  after : Option Char

/-- What may be asked about a place. -/
inductive Look where
  | textStart
  | textEnd
  /-- Lines end in a line feed, or also in a carriage return where `returns` says so. -/
  | lineStart (returns : Bool)
  | lineEnd (returns : Bool)
  /-- Exactly one side is a character of a word. -/
  | boundary (words : CharSet)
  | noBoundary (words : CharSet)
  | wordStart (words : CharSet)
  | wordEnd (words : CharSet)
  /-- No character of a word before. -/
  | startHalf (words : CharSet)
  /-- No character of a word after. -/
  | endHalf (words : CharSet)
  deriving DecidableEq

namespace Look

def isIn (words : CharSet) (c : Option Char) : Bool := c.any words.contains

def holds (g : Gap) : Look → Bool
  | textStart => g.before.isNone
  | textEnd => g.after.isNone
  | lineStart false => g.before.isNone || g.before == some '\n'
  | lineStart true => g.before.isNone || g.before == some '\n' ||
      (g.before == some '\r' && g.after != some '\n')
  | lineEnd false => g.after.isNone || g.after == some '\n'
  | lineEnd true => g.after.isNone || g.after == some '\r' ||
      (g.after == some '\n' && g.before != some '\r')
  | boundary words => isIn words g.before != isIn words g.after
  | noBoundary words => isIn words g.before == isIn words g.after
  | wordStart words => !isIn words g.before && isIn words g.after
  | wordEnd words => isIn words g.before && !isIn words g.after
  | startHalf words => !isIn words g.before
  | endHalf words => !isIn words g.after

end Look

inductive Regex where
  | empty
  | chars (s : CharSet)
  | look (l : Look)
  | seq (a b : Regex)
  | alt (a b : Regex)
  /-- At least `least` times, and at most `most` times where there is a bound. -/
  | times (r : Regex) (least : Nat) (most : Option Nat)
  deriving DecidableEq, Inhabited

namespace Regex

/-- One expression after the other. -/
def followedBy : Regex → Regex → Regex
  | empty, b => b
  | a, b => seq a b

/-- Whether the empty text matches at a place. -/
def matchesEmpty (g : Gap) : Regex → Bool
  | empty => true
  | chars _ => false
  | look l => l.holds g
  | seq a b => matchesEmpty g a && matchesEmpty g b
  | alt a b => matchesEmpty g a || matchesEmpty g b
  | times r least _ => least = 0 || matchesEmpty g r

/--
What is left to match after one character at a place. Repetitions before the one that takes the
character may match nothing, if the repeated expression can.
-/
def after (g : Gap) (c : Char) : Regex → List Regex
  | empty => []
  | look _ => []
  | chars s => if s.contains c then [empty] else []
  | seq a b =>
    (after g c a).map (followedBy · b) ++ if matchesEmpty g a then after g c b else []
  | alt a b => after g c a ++ after g c b
  | times r least most =>
    if most = some 0 then []
    else (after g c r).map
      (followedBy · (times r (if matchesEmpty g r then 0 else least - 1) (most.map (· - 1))))

/--
Whether the expression matches somewhere in the rest of a text, or one that started earlier and is
left to match does.
-/
def searchFrom (r : Regex) : List Regex → Option Char → List Char → Bool
  | left, before, [] => (r :: left).any (matchesEmpty ⟨before, none⟩)
  | left, before, c :: rest =>
    let gap := ⟨before, some c⟩
    let left := r :: left
    left.any (matchesEmpty gap) ||
      searchFrom r (left.flatMap (after gap c)).eraseDups (some c) rest

/-- Whether the expression matches somewhere in a text. -/
def isFoundIn (r : Regex) (text : String) : Bool := searchFrom r [] none text.toList

end Regex

end CloudAudit.Pattern
