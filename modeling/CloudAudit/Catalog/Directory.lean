import CloudAudit.Catalog.Compile
import CloudAudit.Catalog.JsonText
import CloudAudit.Catalog.YamlText
import CloudAudit.Files.Tree

/-!
Loading catalogs from text, from a file and from a directory. Every file of a directory ends up
either loaded or rejected, and each service is loaded once, from the first file that defines it.
-/

namespace CloudAudit

inductive CatalogFormat where
  | yaml
  | json
  deriving DecidableEq, Repr

namespace CatalogFormat

def name : CatalogFormat → String
  | yaml => "yaml"
  | json => "json"

/-- Format by extension, in any case of its letters. -/
def ofLocation? (location : String) : Option CatalogFormat := do
  let extension ← Location.extension? location
  let folded := String.ofList (extension.toList.map Char.toLower)
  if folded = "yaml" ∨ folded = "yml" then some yaml
  else if folded = "json" then some json
  else none

end CatalogFormat

/-- Reads a document in one of the two formats. -/
def Document.ofText? (format : CatalogFormat) (text : String) : Option Document :=
  match format with
  | .yaml => Document.ofYamlText? text
  | .json => Document.ofJsonText? text

namespace Catalog

/-- Reads and compiles a catalog; `origin` says where the text is from. -/
def ofText (format : CatalogFormat) (origin text : String) : Except CatalogError Catalog :=
  match Document.ofText? format text with
  | some d => d.compile
  | none => .error (.parse origin none)

/-- Loads one catalog file. -/
def ofFile (t : FileTree) (location : String) : Except CatalogError Catalog :=
  match CatalogFormat.ofLocation? location with
  | none => .error (.parse location (some "unsupported extension, expected .yaml, .yml or .json"))
  | some format => match t.readText? location with
    | none => .error (.io location)
    | some text => ofText format location text

end Catalog

/-- What became of the files of a directory, each list in ascending order of locations. -/
structure CatalogBatch where
  loaded : List (String × Catalog) := []
  failed : List (String × CatalogError) := []
  deriving Inhabited

namespace CatalogBatch

def fileCount (b : CatalogBatch) : Nat := b.loaded.length + b.failed.length

def isClean (b : CatalogBatch) : Bool := b.failed.isEmpty

def catalogs (b : CatalogBatch) : List Catalog := b.loaded.map (·.2)

/-- The loaded catalog of a service. -/
def service? (b : CatalogBatch) (name : String) : Option Catalog :=
  b.catalogs.find? (·.service = name)

/-- The result of one more file: a service defined before is a defect of the later file. -/
def add (b : CatalogBatch) (location : String) : Except CatalogError Catalog → CatalogBatch
  | .error e => { b with failed := b.failed ++ [(location, e)] }
  | .ok c =>
    if b.catalogs.any (·.service = c.service) then
      { b with failed := b.failed ++ [(location, .duplicateService c.service)] }
    else { b with loaded := b.loaded ++ [(location, c)] }

/-- Counts of a batch; `elapsed` is the time it took. -/
def summary (b : CatalogBatch) (elapsed : String) : String :=
  "Catalog loading completed: " ++ toString b.fileCount ++ " files discovered, " ++
    toString b.loaded.length ++ " compiled, " ++ toString b.failed.length ++ " failed, " ++
    elapsed ++ " total"

/-- Order of names, first differences first. -/
def namesLe : List String → List String → Bool
  | [], _ => true
  | _ :: _, [] => false
  | a :: as, b :: bs => if a = b then namesLe as bs else decide (a < b)

/-- Files with the extension of a catalog, in ascending order. -/
def catalogFiles (files : List FileTree.Found) : List FileTree.Found :=
  (files.filter fun f => (CatalogFormat.ofLocation? f.location).isSome).mergeSort
    fun a b => namesLe a.names b.names

/-- Loads all catalogs of a directory. -/
def ofDirectory (t : FileTree) (directory : String) : Except CatalogError CatalogBatch :=
  if !t.isDirectory directory then .error (.directoryNotFound directory)
  else match t.allFiles directory with
    | .error location => .error (.io location)
    | .ok files => .ok ((catalogFiles files).foldl
        (fun b f => b.add f.location (Catalog.ofFile t f.location)) {})

end CatalogBatch

end CloudAudit
