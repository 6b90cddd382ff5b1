import CloudAudit.Files.Tree
import CloudAudit.Json.Syntax
import CloudAudit.Report.Stem
import CloudAudit.Vendor

/-!
Answers from recorded files. Below a directory, a request is answered by the file of its unit and
resource, else of its unit, else of its service and resource, else of its service.
-/

namespace CloudAudit

/-- Recorded answers, known by their names below a directory. -/
structure Fixtures where
  root : String
  /-- Location of each file by its name below the root, names joined by slashes. -/
  index : List (String × String)
  deriving Repr

/-- Why a directory gives no recorded answers. -/
inductive FixturesError where
  | notFound (root : String)
  /-- A location that cannot be followed. -/
  | unreadable (location : String)
  deriving DecidableEq, Repr

namespace FixturesError

def message : FixturesError → String
  | notFound root => "fixture directory '" ++ root ++ "' does not exist"
  | unreadable location => "cannot read '" ++ location ++ "'"

end FixturesError

namespace Fixtures

def extension : String := "json"

def fileName (stem : String) : String := stem ++ "." ++ extension

/-- Finds the recorded files below a directory. -/
def ofDirectory (t : FileTree) (root : String) : Except FixturesError Fixtures :=
  if !t.isDirectory root then .error (.notFound root)
  else match t.allFiles root with
    | .error location => .error (.unreadable location)
    | .ok files =>
      let recorded := files.filter fun f => Location.extension? f.location = some extension
      .ok ⟨root, recorded.map fun f => (String.intercalate "/" f.names, f.location)⟩

def id (f : Fixtures) : String := "fixture:" ++ f.root

/-- File names for a request, that of its resource first. -/
def fileNames (r : Request) : List String :=
  match r.resourceRef with
  | some reference => [fileName (r.action ++ "__" ++ Stem.sanitize reference), fileName r.action]
  | none => [fileName r.action]

/-- Names to look for, in this order. -/
def candidates (r : Request) : List String :=
  let service := Stem.sanitize r.service
  let unit := String.intercalate "/" [Stem.sanitize r.account, Stem.sanitize r.region, service]
  [unit, service].flatMap fun directory => (fileNames r).map fun name => directory ++ "/" ++ name

/-- Location of the file that answers a request. -/
def location? (f : Fixtures) (r : Request) : Option String :=
  (candidates r).findSome? fun name => f.index.lookup name

/-- Field that marks a recorded error. -/
def errorKey : String := "vendor_error"

/-- A recorded error, its fields by name or in order; without a mark it is final. -/
def readError? (action : String) : Json → Option VendorError
  | .object fields => do
    let transient ← match Fields.get? fields "transient" with
      | none => some false
      | some (.bool b) => some b
      | some _ => none
    ofParts transient (Fields.get? fields "message")
  | .array [.bool transient, message] => ofParts transient (some message)
  | _ => none
where
  ofParts (transient : Bool) : Option Json → Option VendorError
    | some (.string text) =>
      some (if transient then .transient action text else .fatal action text)
    | _ => none

/-- The answer that a file holds, if it holds one. -/
def answer? (action text : String) : Option Answer := do
  let v ← Json.parse? text
  match v.get? errorKey with
  | some e => (readError? action e).map .error
  | none => some (.ok v)

/-- One call. A file that holds no answer is an error with its location for a text. -/
def reply (f : Fixtures) (t : FileTree) (call : VendorCall) : Answer :=
  let r := call.request
  match f.location? r with
  | none => .error (.fatal r.action
      ("no fixture found (tried " ++ String.intercalate ", " (candidates r) ++ ")"))
  | some location =>
    ((t.readText? location).bind (answer? r.action)).getD (.error (.fatal r.action location))

/-- The client over a tree of files. -/
def client (f : Fixtures) (t : FileTree) : Client Unit := Client.ofFunction f.id (f.reply t)

end Fixtures

end CloudAudit
