import CloudAudit.CommandLine.Command
import Std.Time.DateTime.Timestamp

/-!
The program: it copies the files that a command reads into a tree, lets the command work on the
tree, takes the steps that the command asks for, and prints how it ended.
-/

namespace CloudAudit

/-- Files copied so far, and the true places that have been looked at. -/
structure Copy where
  root : FileNode := .directory []
  places : List String := []

/-- A text for a file that cannot be read: it is none. -/
def unreadable : ByteArray := ⟨#[255]⟩

/-- The true place of a location; none when it leads nowhere. -/
def truePlace? (location : String) : IO (Option String) := do
  try
    let place ← IO.FS.realPath location
    if ← place.pathExists then return some place.toString else return none
  catch _ => return none

/-- Copies what is at a true place. Links are kept, and the places they lead to are copied too. -/
partial def Copy.gather (copy : Copy) (place : String) : IO Copy := do
  if copy.places.contains place then return copy
  let names := Location.names place
  let path ← IO.FS.realPath place
  let mut copy := { copy with places := place :: copy.places }
  if ← path.isDir then
    let old := (copy.root.child? names).getD (.directory [])
    copy := { copy with root := FileNode.put old copy.root names }
    for entry in ← (try path.readDir catch _ => pure #[]) do
      let location := Location.join place entry.fileName
      let linkTo (target : List String) (c : Copy) : Copy :=
        { c with root := FileNode.put (.link target) c.root (Location.names location) }
      match ← truePlace? location with
      | none => copy := linkTo (Location.names location) copy
      | some real =>
        if real ≠ location then copy := linkTo (Location.names real) copy
        copy ← copy.gather real
    return copy
  else
    let content ← try IO.FS.readBinFile path catch _ => pure unreadable
    return { copy with root := FileNode.put (.file content) copy.root names }

/-- Names with the ways upward taken. -/
def settled (names : List String) : List String :=
  (names.foldl (fun done n => if n = ".." then done.drop 1 else n :: done) []).reverse

/-- Copies what is at a location, as far as it is there. -/
def Copy.add (copy : Copy) (here location : String) : IO Copy := do
  match ← truePlace? location with
  | none => return copy
  | some real =>
    let names := settled (Location.names (Location.join here location))
    let copy := if names = Location.names real then copy
      else { copy with root := FileNode.put (.link (Location.names real)) copy.root names }
    copy.gather real

def Copy.tree (copy : Copy) (here : String) : FileTree := ⟨"/", copy.root, Location.names here⟩

/-- Takes steps up to the first that cannot be taken. -/
def takeSteps : List FileStep → IO (Option FileStep)
  | [] => return none
  | s :: rest => do
    let taken ← try
        match s with
        | .makeDirectory location => IO.FS.createDirAll location
        | .write location text => IO.FS.writeFile location text
        pure true
      catch _ => pure false
    if taken then takeSteps rest else return some s

/-- A fresh name for a scan: random digits in five groups. -/
def freshScanId : IO String := do
  let bytes ← IO.getRandomBytes 16
  let digits := bytes.toList.flatMap fun b =>
    [Nat.digitChar (b.toNat / 16), Nat.digitChar (b.toNat % 16)]
  let digits := (digits.set 12 '4').set 16 'a'
  let group (start count : Nat) := String.ofList ((digits.drop start).take count)
  return String.intercalate "-" [group 0 8, group 8 4, group 12 4, group 16 4, group 20 12]

def thisHost : IO Host := do
  let named (path : String) : IO String := do
    try return (← IO.FS.readFile path).trimAscii.toString catch _ => return "unknown"
  return { hostname := ← named "/proc/sys/kernel/hostname"
           system := ← named "/proc/sys/kernel/ostype"
           username := (← IO.getEnv "USER").getD "unknown", process := none }

def currentMoment : IO Moment := do
  let t ← Std.Time.Timestamp.now
  return ⟨t.toMillisecondsSinceUnixEpoch.val⟩

/-- Copies what a command reads. -/
def copyFor (command : Command) (here : String) : IO FileTree := do
  let configFile := match command with
    | .scan file _ => file.toList
    | .validate _ => []
  let copy ← configFile.foldlM (fun (c : Copy) location => c.add here location) {}
  let copy ← (command.directories (copy.tree here)).foldlM (fun c location => c.add here location) copy
  return copy.tree here

/-- What a command line finds around it. -/
def surroundingsFor (words : List String) : IO Surroundings := do
  let here := (← IO.currentDir).toString
  let files ← match CommandLine.parse words with
    | .ok command => copyFor command here
    | .error _ => pure (Copy.tree {} here)
  let names := match CommandLine.parse words with
    | .ok command => command.variableNames files
    | .error _ => []
  let environment ← names.filterMapM fun name => do
    return (← IO.getEnv name).map fun value => (name, value)
  return { files, environment, scanId := ← freshScanId, host := ← thisHost, now := ← currentMoment
           processors := RunConfig.maxDefaultWorkers }

/-- Runs a command line, and gives its exit code. -/
def execute (words : List String) : IO UInt32 := do
  let started ← IO.monoMsNow
  let work := CommandLine.work words (← surroundingsFor words)
  let failed ← takeSteps work.steps
  let ending := work.ending (failed.map .ofStep)
  let elapsed := CommandLine.elapsedText ((← IO.monoMsNow) - started)
  for line in ending.lines elapsed do
    IO.println line
  if let some e := ending.error then
    IO.eprintln e
  return ending.exitCode.toUInt32

end CloudAudit

def main (words : List String) : IO UInt32 := CloudAudit.execute words
