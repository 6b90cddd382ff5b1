import CloudAudit.Action
import CloudAudit.Retry
import CloudAudit.Scope

/-!
From actions to vendor calls.
-/

namespace CloudAudit

/-- Parameter that names a single resource. -/
def resourceParam : String := "resource"

/-- The resource a call asks for: its own parameter, else the parent item. -/
def resourceRef (params : Fields) (parent : Option String) : Option String :=
  match (Fields.get? params resourceParam).bind Json.idText? with
  | some id => some id
  | none => parent

/-- The request of one call. -/
def Place.request (p : Place) (action : Action) (params : Fields) (parent : Option String) :
    Request :=
  { provider := p.provider, service := p.service, account := p.account, region := p.region,
    action := action.render, resource := action.resource?.getD "", params,
    resourceRef := resourceRef params parent }

namespace Action

/-- The way of asking, and whether it needs a resource. -/
def method? : Action → Option (Method × Bool)
  | list _ => some (.list, false)
  | aggregatedList _ => some (.aggregatedList, false)
  | get _ => some (.get, true)
  | iamPolicy _ => some (.iamPolicy, true)
  | eval => none

def missingReference (r : Request) : VendorError :=
  .fatal r.action "no resource reference: set the 'resource' param or iterate with for_each"

/-- Performs an action. Without a vendor, the parameters are the answer. -/
def dispatch (config : RetryConfig) (a : Action) (r : Request) : Program Answer :=
  match a.method? with
  | none => .done (.ok (.object r.params))
  | some (method, needsResource) =>
    if needsResource && r.resourceRef.isNone then .done (.error (missingReference r))
    else Program.askWithRetry config ⟨method, r⟩

end Action

end CloudAudit
