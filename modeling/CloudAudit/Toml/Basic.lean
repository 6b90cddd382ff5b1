/-!
TOML values, and the rules by which lines of a document build its tables: nothing is defined twice,
and what stands between braces is complete.
-/

namespace CloudAudit

/-- How a table came about. -/
inductive TableOrigin where
  /-- Named by a header. -/
  | header
  /-- Stands above a header. -/
  | implied
  /-- Stands before a dot of a key. -/
  | dotted
  /-- Written between braces. -/
  | inline
  deriving DecidableEq, Repr, Inhabited

inductive Toml where
  | text (s : String)
  | integer (n : Int)
  /-- A number that is no integer, as written. -/
  | decimal (literal : String)
  | flag (b : Bool)
  /-- A date or time, as written. -/
  | moment (literal : String)
  | array (items : List Toml)
  | table (origin : TableOrigin) (entries : List (String × Toml))
  /-- Tables under one header. -/
  | tables (items : List (List (String × Toml)))
  deriving Inhabited

namespace Toml

abbrev Entries := List (String × Toml)

namespace Entries

/-- Puts a value under a key, in place of an older one. -/
def set (key : String) (v : Toml) : Entries → Entries
  | [] => [(key, v)]
  | (k, old) :: rest => if k = key then (k, v) :: rest else (k, old) :: set key v rest

/--
Adds a value under the parts of a key. Parts before the last name tables, which keys alone may
build; on the way, tables above headers and the last of tables under one header may be passed.
-/
def define (v : Toml) : List String → Entries → Option Entries
  | [], _ => none
  | [key], entries => match entries.lookup key with
    | none => some (entries.set key v)
    | some _ => none
  | key :: rest, entries =>
    let passes := 1 < rest.length
    match entries.lookup key with
    | none => (define v rest []).map fun inner => entries.set key (.table .dotted inner)
    | some (.table origin inner) =>
      if origin = .dotted || (passes && origin = .implied) then
        (define v rest inner).map fun inner => entries.set key (.table origin inner)
      else none
    | some (.tables items) => match items.getLast? with
      | some last =>
        if passes then (define v rest last).map fun last =>
          entries.set key (.tables (items.dropLast ++ [last]))
        else none
      | none => none
    | some _ => none

/-- Changes the table under the parts of a header; tables that are missing are implied. -/
def within (change : Entries → Option Entries) : List String → Entries → Option Entries
  | [], entries => change entries
  | key :: rest, entries => match entries.lookup key with
    | none => (within change rest []).map fun inner => entries.set key (.table .implied inner)
    | some (.table origin inner) =>
      if origin = .inline then none
      else (within change rest inner).map fun inner => entries.set key (.table origin inner)
    | some (.tables items) => match items.getLast? with
      | some last => (within change rest last).map fun last =>
        entries.set key (.tables (items.dropLast ++ [last]))
      | none => none
    | some _ => none

/-- Opens the table of a header; only an implied one may be there before. -/
def openTable (key : String) (entries : Entries) : Option Entries :=
  match entries.lookup key with
  | none => some (entries.set key (.table .header []))
  | some (.table .implied inner) => some (entries.set key (.table .header inner))
  | some _ => none

/-- Opens one more table under a header that repeats. -/
def openNext (key : String) (entries : Entries) : Option Entries :=
  match entries.lookup key with
  | none => some (entries.set key (.tables [[]]))
  | some (.tables items) => some (entries.set key (.tables (items ++ [[]])))
  | some _ => none

end Entries

/-- A line of a document. -/
inductive Line where
  | header (path : List String)
  | nextHeader (path : List String)
  | entry (path : List String) (v : Toml)
  deriving Inhabited

/-- A document so far: its tables, and the header that entries are under. -/
structure Draft where
  root : Entries := []
  place : List String := []

namespace Draft

/-- Opens the table at the end of a path. -/
def openAt (d : Draft) (path : List String) (opens : String → Entries → Option Entries) :
    Option Draft :=
  match path.getLast? with
  | none => none
  | some key => (d.root.within (opens key) path.dropLast).map fun root => ⟨root, path⟩

def add (d : Draft) : Line → Option Draft
  | .header path => d.openAt path Entries.openTable
  | .nextHeader path => d.openAt path Entries.openNext
  | .entry path v => (d.root.within (Entries.define v path) d.place).map fun root =>
    { d with root }

end Draft

/-- The table that the lines of a document build. -/
def ofLines? (lines : List Line) : Option Entries :=
  (lines.foldlM Draft.add {}).map Draft.root

/-! Reading values. -/

def asText? : Toml → Option String
  | .text s => some s
  | _ => none

/-- An integer from zero to a limit. -/
def asCount? (limit : Nat) : Toml → Option Nat
  | .integer n => if 0 ≤ n ∧ n ≤ limit then some n.toNat else none
  | _ => none

def asItems? : Toml → Option (List Toml)
  | .array items => some items
  | .tables items => some (items.map (.table .header))
  | _ => none

def asEntries? : Toml → Option Entries
  | .table _ entries => some entries
  | _ => none

end Toml

end CloudAudit
