import CloudAudit.Pattern.Parse

/-!
Filters on names: patterns that admit names and patterns that refuse them. What a pattern says of
names is left to the one who reads it; programs take it as a regular expression.
-/

namespace CloudAudit

/-- Which names a regular expression is found in; none when the pattern is no such expression. -/
def Pattern.compile? (pattern : String) : Option (String → Bool) :=
  (parse? pattern).map Regex.isFoundIn

/-- Patterns are kept as what they say of a name. -/
structure NameFilter where
  includes : List (String → Bool) := []
  excludes : List (String → Bool) := []
  deriving Inhabited

/-- A pattern of a filter that cannot be read. -/
structure InvalidFilter where
  /-- What the filter is for. -/
  kind : String
  pattern : String
  deriving DecidableEq, Repr

def InvalidFilter.message (e : InvalidFilter) : String :=
  "Invalid " ++ e.kind ++ " filter '" ++ e.pattern ++ "': regex parse error:"

namespace NameFilter

/-- Reads patterns in order, or names the first bad one. -/
def readAll (compile : String → Option (String → Bool)) (kind : String) :
    List String → Except InvalidFilter (List (String → Bool))
  | [] => .ok []
  | pattern :: rest => match compile pattern with
    | none => .error ⟨kind, pattern⟩
    | some test => (readAll compile kind rest).map (test :: ·)

/-- Reads the patterns that admit, then those that refuse. -/
def read (kind : String) (includes excludes : List String)
    (compile : String → Option (String → Bool) := Pattern.compile?) :
    Except InvalidFilter NameFilter := do
  let includes ← readAll compile kind includes
  let excludes ← readAll compile kind excludes
  pure { includes, excludes }

/-- Whether a name is admitted and not refused; without patterns that admit, every name is. -/
def allows (f : NameFilter) (name : String) : Bool :=
  (f.includes.isEmpty || f.includes.any (· name)) && !f.excludes.any (· name)

end NameFilter

end CloudAudit
