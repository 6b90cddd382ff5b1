/-!
Locations of files as text, with names between slashes.
-/

namespace CloudAudit.Location

/-- Names between slashes, in order; empty ones are kept. -/
def pieces : List Char → List (List Char)
  | [] => [[]]
  | c :: rest =>
    if c = '/' then [] :: pieces rest
    else match pieces rest with
      | [] => [[c]]
      | piece :: more => (c :: piece) :: more

/-- Names of a location; empty names and names of one dot say nothing. -/
def names (location : String) : List String :=
  ((pieces location.toList).map String.ofList).filter fun n => n ≠ "" && n ≠ "."

def isAbsolute (location : String) : Bool := location.toList.head? = some '/'

/-- A location inside a directory; an absolute one stands for itself. -/
def join (directory name : String) : String :=
  if isAbsolute name || directory = "" then name
  else if directory.toList.getLast? = some '/' then directory ++ name
  else directory ++ "/" ++ name

/-- Last name of a location, unless it leads upward. -/
def fileName? (location : String) : Option String :=
  match (names location).getLast? with
  | some n => if n = ".." then none else some n
  | none => none

/-- Text after the last dot of a name; a dot at the start of a name starts no extension. -/
def extensionOf? (name : List Char) : Option (List Char) :=
  let tail := (name.reverse.takeWhile (· ≠ '.')).reverse
  if tail.length + 1 < name.length then some tail else none

def extension? (location : String) : Option String :=
  (fileName? location).bind fun n => (extensionOf? n.toList).map String.ofList

end CloudAudit.Location
