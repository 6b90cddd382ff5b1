import CloudAudit.Json.Print
import CloudAudit.Url.Parse
import CloudAudit.Vendor

/-!
Asking over the web. Each service has an endpoint, a request becomes a URL below it, and parameters
become its query. A reference that is a URL already is asked as it stands.
-/

namespace CloudAudit

/-- What requests need of a library of URLs, whatever it takes for a URL. -/
structure UrlLibrary (υ : Type) where
  parse : String → Except UrlError υ
  /-- The URL with names added to its path; none when it has no path of names. -/
  extend? : υ → List String → Option υ
  /-- The URL with a form added to its query. -/
  addForm : υ → List (String × String) → υ

/-- The library that clients ask with. -/
def Url.library : UrlLibrary Url := ⟨parse, extend?, addForm⟩

namespace Rest

/-- Why a request gets no answer. -/
inductive Failure where
  | unknownService (service : String)
  | badEndpoint (endpoint : String) (cause : UrlError)
  | opaqueEndpoint (endpoint : String)
  | badReference (cause : UrlError)
  | opaqueReference (reference : String)
  | noReference
  /-- The token cannot stand in a header. -/
  | badToken
  /-- The URL is none that can be asked. -/
  | unaskable (url : Url)
  | unreachable (url : Url)
  deriving DecidableEq, Repr

namespace Failure

def message : Failure → String
  | unknownService service => "no endpoint configured for service '" ++ service ++ "'"
  | badEndpoint endpoint cause => "invalid endpoint '" ++ endpoint ++ "': " ++ cause.message
  | opaqueEndpoint endpoint => "endpoint '" ++ endpoint ++ "' cannot be a base URL"
  | badReference cause => cause.message
  | opaqueReference reference => "reference '" ++ reference ++ "' cannot be a base URL"
  | noReference => "request has no resource reference"
  | badToken => "builder error"
  | unaskable url => "builder error for url (" ++ url.render ++ ")"
  | unreachable url => "error sending request for url (" ++ url.render ++ ")"

/-- Only a server that does not answer may answer later. -/
def toVendorError (action : String) : Failure → VendorError
  | unreachable url => .transient action (unreachable url).message
  | f => .fatal action f.message

end Failure

/-! URLs of requests. -/

/-- Last name in the URL of a policy. -/
def policyName : String := "iamPolicy"

/-- Stands for the region where all regions are asked at once. -/
def aggregatedName : String := "aggregated"

/-- Names that a request adds to the path of its endpoint. -/
def names (m : Method) (r : Request) : Except Failure (List String) :=
  match m, r.resourceRef with
  | .list, _ => .ok [r.account, r.region, r.resource]
  | .aggregatedList, _ => .ok [r.account, aggregatedName, r.resource]
  | .get, some reference => .ok [r.account, r.region, r.resource, reference]
  | .iamPolicy, some reference => .ok [r.account, r.region, r.resource, reference, policyName]
  | _, none => .error .noReference

/-- A parameter in a query: texts as they are, all else as JSON. -/
def queryText : Json → String
  | .string s => s
  | v => v.compact

/-- The query of a request. A parameter that is null is left out. -/
def query (params : Fields) : List (String × String) :=
  (params.filter fun (_, v) => !v.isNull).map fun (k, v) => (k, queryText v)

section

variable {υ : Type} (lib : UrlLibrary υ)

/-- The URL of a request below an endpoint. -/
def urlBelow (endpoint : String) (m : Method) (r : Request) : Except Failure υ := do
  let base ← (lib.parse endpoint).mapError (.badEndpoint endpoint)
  let names ← names m r
  match lib.extend? base names with
  | none => .error (.opaqueEndpoint endpoint)
  | some url => pure (lib.addForm url (query r.params))

def isAbsolute (reference : String) : Bool :=
  ["https://", "http://"].any fun scheme => scheme.toList.isPrefixOf reference.toList

/-- The URL of a reference that is one itself; lists are never asked there. -/
def urlAt? (reference : String) (m : Method) : Except Failure (Option υ) := do
  let url ← (lib.parse reference).mapError .badReference
  match m with
  | .get => pure (some url)
  | .iamPolicy => match lib.extend? url [policyName] with
    | none => .error (.opaqueReference reference)
    | some url => pure (some url)
  | .list | .aggregatedList => pure none

end

end Rest

/-- A client that asks over the web. -/
structure Rest where
  /-- Endpoints by service, in ascending order. -/
  endpoints : List (String × String)
  token : Option String := none

namespace Rest

def id (c : Rest) : String := "rest:" ++ String.intercalate "," (c.endpoints.map (·.1))

/-- The URL of a request. -/
def url {υ : Type} (lib : UrlLibrary υ) (c : Rest) (m : Method) (r : Request) :
    Except Failure υ := do
  let own ← match r.resourceRef with
    | some reference => if isAbsolute reference then urlAt? lib reference m else pure none
    | none => pure none
  match own, c.endpoints.lookup r.service with
  | some url, _ => pure url
  | none, some endpoint => urlBelow lib endpoint m r
  | none, none => .error (.unknownService r.service)

/-! Sending. -/

/-- Characters that no header may have. -/
def isForbiddenInHeader (c : Char) : Bool := (c.toNat < 32 && c ≠ '\t') || c.toNat = 127

/-- Greatest length in bytes of a URL that can be asked. -/
def urlLimit : Nat := 65534

/-- Whether a URL is one of the web with a host that can be asked. -/
def isAskable (u : Url) : Bool :=
  u.isHttp && u.render.utf8ByteSize ≤ urlLimit && match u.authority with
    | some a => !(a.host.render.toList.any fun c => "\"\x60\x7b\x7d".toList.contains c)
    | none => false

/-- A request that is ready to be sent. -/
structure Prepared where
  url : Url
  token : Option String
  deriving DecidableEq, Repr

/-- Makes a request ready; user information in its URL is no part of it. -/
def prepare (c : Rest) (m : Method) (r : Request) : Except Failure Prepared := do
  let url ← c.url Url.library m r
  let shown := url.anonymous
  if !url.hasHost then .error (.unaskable url)
  else if (c.token.getD "").toList.any isForbiddenInHeader then .error .badToken
  else if !isAskable shown then .error (.unaskable shown)
  else pure ⟨shown, c.token⟩

/-- One call. A carrier gives the answer of the server, or nothing when there is no server. -/
def reply (c : Rest) (carrier : Prepared → Option Json) (call : VendorCall) : Answer :=
  match (c.prepare call.method call.request).bind fun p =>
    match carrier p with
    | some v => .ok v
    | none => .error (.unreachable p.url) with
  | .ok v => .ok v
  | .error f => .error (f.toVendorError call.request.action)

/-- The client over a carrier. -/
def client (c : Rest) (carrier : Prepared → Option Json) : Client Unit :=
  Client.ofFunction c.id (c.reply carrier)

/-- Carries nothing: no server answers. -/
def offline : Prepared → Option Json := fun _ => none

end Rest

end CloudAudit
