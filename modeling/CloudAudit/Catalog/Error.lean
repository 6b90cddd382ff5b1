import CloudAudit.Action
import CloudAudit.Path
import CloudAudit.Plan

/-!
Why a catalog is rejected.
-/

namespace CloudAudit

inductive CatalogError where
  /-- The file cannot be read. -/
  | io (path : String)
  /-- The text is no catalog document; a reason is given when the text was not looked at. -/
  | parse (origin : String) (reason : Option String)
  | invalid (service reason : String)
  | dispatch (service discovery : String) (cause : ActionError)
  | template (service location : String) (cause : TemplateError)
  | unknownOperator (check operator : String)
  | plan (service : String) (cause : PlanError)
  | duplicateService (service : String)
  | directoryNotFound (path : String)
  deriving DecidableEq, Repr

namespace CatalogError

def message : CatalogError → String
  | io path => "Failed to read catalog '" ++ path ++ "'"
  | parse origin none => "Failed to parse catalog '" ++ origin ++ "'"
  | parse origin (some reason) => "Failed to parse catalog '" ++ origin ++ "': " ++ reason
  | invalid service reason => "Invalid catalog for service '" ++ service ++ "': " ++ reason
  | dispatch service discovery cause =>
    "Dispatch error in discovery '" ++ discovery ++ "' of service '" ++ service ++ "': " ++
      cause.message
  | template service location cause =>
    "Template error in " ++ location ++ " of service '" ++ service ++ "': " ++ cause.message
  | unknownOperator check operator =>
    "Unknown operator '" ++ operator ++ "' in check '" ++ check ++ "'"
  | plan service cause =>
    "Plan validation failed for service '" ++ service ++ "': " ++ cause.message
  | duplicateService service => "Service '" ++ service ++ "' is defined by more than one catalog"
  | directoryNotFound path => "Catalog directory not found: " ++ path

def isPlanError : CatalogError → Bool
  | plan .. => true
  | _ => false

def isDispatchError : CatalogError → Bool
  | dispatch .. => true
  | _ => false

end CatalogError

end CloudAudit
