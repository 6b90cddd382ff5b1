import CloudAudit.Text.Affix

/-!
Action names. A name says how a vendor is asked: a listing, a listing over all regions, one
resource, the access policy of one resource, or nothing at all.
-/

namespace CloudAudit

inductive Action where
  | list (resource : String)
  | aggregatedList (resource : String)
  | get (resource : String)
  | iamPolicy (resource : String)
  /-- No vendor call: the parameters themselves are the answer. -/
  | eval
  deriving DecidableEq, Repr, Inhabited

/-- Why a text is no action name; both carry the trimmed name. -/
inductive ActionError where
  | unrecognized (action : String)
  | invalidResource (action resource : String)
  deriving DecidableEq, Repr

namespace ActionError

def message : ActionError → String
  | unrecognized action =>
    "Unrecognized action '" ++ action ++ "': expected list_<resource>, aggregatedList_<resource>, " ++
      "get_<resource>, get_<resource>_iam_policy or eval"
  | invalidResource action resource =>
    "Action '" ++ action ++ "' has an invalid resource name '" ++ resource ++ "'"

end ActionError

namespace Action

def listMark : List Char := "list_".toList
def aggregatedMark : List Char := "aggregatedList_".toList
def getMark : List Char := "get_".toList
def policyMark : List Char := "_iam_policy".toList

/-- A resource word: ASCII letters, digits and inner underscores, not empty. -/
def isResourceWord (cs : List Char) : Bool :=
  cs ≠ [] && cs.head? ≠ some '_' && cs.getLast? ≠ some '_' &&
    cs.all fun c => c.isAlphanum || c = '_'

def withResource (action resource : List Char) (make : String → Action) : Except ActionError Action :=
  if isResourceWord resource then .ok (make (String.ofList resource))
  else .error (.invalidResource (String.ofList action) (String.ofList resource))

/-- Reads a trimmed name. After `get_`, a final `_iam_policy` is always the policy mark. -/
def parseTrimmed (cs : List Char) : Except ActionError Action :=
  if cs = "eval".toList then .ok eval
  else match Text.afterPrefix? aggregatedMark cs with
    | some resource => withResource cs resource aggregatedList
    | none => match Text.afterPrefix? listMark cs with
      | some resource => withResource cs resource list
      | none => match Text.afterPrefix? getMark cs with
        | some rest => match Text.beforeSuffix? policyMark rest with
          | some resource => withResource cs resource iamPolicy
          | none => withResource cs rest get
        | none => .error (.unrecognized (String.ofList cs))

/-- Reads an action name, blanks around it ignored. -/
def parse (text : String) : Except ActionError Action := parseTrimmed (Text.trim text.toList)

/-- The name of an action. -/
def render : Action → String
  | list resource => "list_" ++ resource
  | aggregatedList resource => "aggregatedList_" ++ resource
  | get resource => "get_" ++ resource
  | iamPolicy resource => "get_" ++ resource ++ "_iam_policy"
  | eval => "eval"

def resource? : Action → Option String
  | list resource | aggregatedList resource | get resource | iamPolicy resource => some resource
  | eval => none

def kind : Action → String
  | list _ => "list"
  | aggregatedList _ => "aggregatedList"
  | get _ => "get"
  | iamPolicy _ => "iam_policy"
  | eval => "eval"

/-- Whether the action asks a vendor. -/
def isRemote : Action → Bool
  | eval => false
  | _ => true

end Action

end CloudAudit
