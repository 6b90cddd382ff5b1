import CloudAudit.Files.Location

/-!
A tree of files. Locations are names from the top; links are followed, up to a limit. Changes are
a list of steps that is taken until one of them cannot be.
-/

namespace CloudAudit

inductive FileNode where
  | file (content : ByteArray)
  | directory (entries : List (String × FileNode))
  | link (target : List String)
  deriving Inhabited

namespace FileNode

def entries : FileNode → List (String × FileNode)
  | .directory entries => entries
  | _ => []

/-- The node under a list of names, no link followed. -/
def child? : FileNode → List String → Option FileNode
  | n, [] => some n
  | .directory entries, name :: rest => match entries.lookup name with
    | some n => child? n rest
    | none => none
  | _, _ :: _ => none

/-- Replaces an entry in place or appends it. -/
def setEntry (name : String) (n : FileNode) : List (String × FileNode) → List (String × FileNode)
  | [] => [(name, n)]
  | (k, old) :: rest =>
    if k = name then (name, n) :: rest else (k, old) :: setEntry name n rest

/-- Puts a node under a list of names; missing directories are made, and files in the way stay. -/
def put (n : FileNode) : FileNode → List String → FileNode
  | _, [] => n
  | .directory entries, name :: rest =>
    let old := (entries.lookup name).getD (.directory [])
    .directory (setEntry name (put n old rest) entries)
  | other, _ :: _ => other

/-- Takes the node under a list of names away. -/
def erase : FileNode → List String → FileNode
  | .directory entries, [name] => .directory (entries.filter (·.1 ≠ name))
  | .directory entries, name :: rest => match entries.lookup name with
    | some old => .directory (setEntry name (erase old rest) entries)
    | none => .directory entries
  | other, _ => other

end FileNode

/-- A tree with the location of its top, and the names from there to where relative locations start. -/
structure FileTree where
  top : String
  root : FileNode
  here : List String := []
  deriving Inhabited

namespace FileTree

/-- Greatest length of a name in bytes. -/
def nameLimit : Nat := 255

/-- How many names one location may have. -/
def depthLimit : Nat := 4096

/-- How many links one location may pass. -/
def linkLimit : Nat := 40

/-- Names from the top, if the location is not outside the tree. -/
def inner? (t : FileTree) (location : String) : Option (List String) :=
  if location = "" then none
  else
    let names := Location.names location
    let top := Location.names t.top
    let fromTop := Location.isAbsolute location = Location.isAbsolute t.top
    if fromTop && top.isPrefixOf names then some (names.drop top.length)
    else if Location.isAbsolute location then none
    else some (t.here ++ names)

/-- The names with all links followed, and the node there. -/
def walk (root : FileNode) : Nat → Nat → List String → List String → Option (List String × FileNode)
  | 0, _, _, _ => none
  | _ + 1, _, here, [] => (root.child? here).map fun n => (here, n)
  | steps + 1, links, here, name :: rest =>
    if name = ".." then walk root steps links here.dropLast rest
    else if nameLimit < name.utf8ByteSize then none
    else match root.child? (here ++ [name]) with
      | none => none
      | some (.link target) =>
        if links = 0 then none else walk root steps (links - 1) [] (target ++ rest)
      | some (.file content) =>
        if rest.isEmpty then some (here ++ [name], .file content) else none
      | some (.directory _) => walk root steps links (here ++ [name]) rest

/-- The node at a location, links followed, with its true names. -/
def find? (t : FileTree) (location : String) : Option (List String × FileNode) :=
  (t.inner? location).bind fun names => walk t.root depthLimit linkLimit [] names

def isDirectory (t : FileTree) (location : String) : Bool :=
  match t.find? location with
  | some (_, .directory _) => true
  | _ => false

/-- Text of a file; none when it is no file or no UTF-8. -/
def readText? (t : FileTree) (location : String) : Option String :=
  match t.find? location with
  | some (_, .file content) => String.fromUTF8? content
  | _ => none

/-- A file found below a directory. -/
structure Found where
  /-- Names from the directory on. -/
  names : List String
  location : String
  deriving DecidableEq, Repr

/--
Files below a directory, links followed; the location of a dangling link or of a link to a
directory around it is the error. The fuel bounds the depth.
-/
def filesBelow (t : FileTree) : Nat → List (List String) → List String → List String → String →
    Except String (List Found)
  | 0, _, _, _, location => .error location
  | fuel + 1, around, here, names, location =>
    match t.root.child? here with
    | some (.directory entries) =>
      entries.foldlM (fun found (name, entry) => do
        let location := Location.join location name
        let below ← match entry with
          | .file _ => pure [⟨names ++ [name], location⟩]
          | .directory _ =>
            filesBelow t fuel (here :: around) (here ++ [name]) (names ++ [name]) location
          | .link target =>
            match walk t.root depthLimit linkLimit [] target with
            | none => .error location
            | some (_, .file _) => pure [⟨names ++ [name], location⟩]
            | some (place, .directory _) =>
              if (here :: around).contains place then .error location
              else filesBelow t fuel (here :: around) place (names ++ [name]) location
            | some (_, .link _) => .error location
        pure (found ++ below)) []
    | _ => .ok []

/-- All files below the directory at a location, or the location that cannot be followed. -/
def allFiles (t : FileTree) (location : String) : Except String (List Found) :=
  match t.find? location with
  | some (here, _) => filesBelow t depthLimit [] here [] location
  | none => .ok []

/-- The tree with directories made at a location; none when a file is in the way. -/
def makeDirectory? (t : FileTree) (location : String) : Option FileTree :=
  let rec make (root : FileNode) (here : List String) : List String → Option FileNode
    | [] => some root
    | name :: rest =>
      if name = ".." then make root here.dropLast rest
      else if nameLimit < name.utf8ByteSize then none
      else
        let next := here ++ [name]
        match root.child? next with
        | none => make (FileNode.put (.directory []) root next) next rest
        | some (.directory _) => make root next rest
        | some (.file _) => none
        | some (.link target) => match walk root depthLimit linkLimit [] target with
          | some (place, .directory _) => make root place rest
          | _ => none
  (t.inner? location).bind fun names => (make t.root [] names).map fun root => { t with root }

/-- The tree with a text written at a location; none when the directory is missing or in the way. -/
def write? (t : FileTree) (location text : String) : Option FileTree := do
  let names ← t.inner? location
  let name ← names.getLast?
  if nameLimit < name.utf8ByteSize then none
  else match walk t.root depthLimit linkLimit [] names.dropLast with
    | some (place, .directory entries) => match entries.lookup name with
      | some (.directory _) => none
      | some (.link target) => match walk t.root depthLimit linkLimit [] target with
        | some (real, .file _) =>
          pure { t with root := FileNode.put (.file text.toUTF8) t.root real }
        | _ => none
      | _ => pure { t with root := FileNode.put (.file text.toUTF8) t.root (place ++ [name]) }
    | _ => none

end FileTree

inductive FileStep where
  | makeDirectory (location : String)
  | write (location text : String)
  deriving DecidableEq, Repr

namespace FileTree

def step? (t : FileTree) : FileStep → Option FileTree
  | .makeDirectory location => t.makeDirectory? location
  | .write location text => t.write? location text

/-- The tree after the steps that could be taken, and the first that could not. -/
def perform : List FileStep → FileTree → FileTree × Option FileStep
  | [], t => (t, none)
  | s :: rest, t => match t.step? s with
    | some t => perform rest t
    | none => (t, some s)

end FileTree

end CloudAudit
