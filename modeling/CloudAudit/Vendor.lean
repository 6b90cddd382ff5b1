import CloudAudit.Json.Basic

/-!
Asking a vendor: requests, errors, and clients. A client is a step function over its own state; it
may answer, fail or crash.
-/

namespace CloudAudit

/-- Everything a client needs for one call. -/
structure Request where
  provider : String
  service : String
  account : String
  region : String
  action : String
  resource : String
  params : Fields
  /-- The single resource asked for. -/
  resourceRef : Option String
  deriving Inhabited

/-- The four ways of asking. -/
inductive Method where
  | list
  | aggregatedList
  | get
  | iamPolicy
  deriving DecidableEq, Repr, Inhabited

def Method.name : Method → String
  | list => "list"
  | aggregatedList => "aggregated_list"
  | get => "get"
  | iamPolicy => "get_iam_policy"

structure VendorCall where
  method : Method
  request : Request
  deriving Inhabited

inductive VendorError where
  /-- The call may succeed when repeated. -/
  | transient (operation message : String)
  | fatal (operation message : String)
  deriving DecidableEq, Repr

namespace VendorError

def message : VendorError → String
  | transient operation message => "Transient vendor error in '" ++ operation ++ "': " ++ message
  | fatal operation message => "Vendor error in '" ++ operation ++ "': " ++ message

def isTransient : VendorError → Bool
  | transient .. => true
  | fatal .. => false

end VendorError

/-- Outcome of a call that comes back. -/
abbrev Answer := Except VendorError Json

/-- What one call does: it comes back or takes its worker down, and it may ask the scan to stop. -/
structure Reply where
  /-- Absent when the client crashes. -/
  answer : Option Answer
  cancels : Bool := false

/-- A client over states `σ`. -/
structure Client (σ : Type) where
  id : String
  reply : VendorCall → σ → Reply × σ

/-- A client in use: its state, the calls so far (latest first), and whether one asked to stop. -/
structure Session (σ : Type) where
  state : σ
  calls : List VendorCall := []
  cancelled : Bool := false

namespace Session

/-- One call, recorded. -/
def ask {σ : Type} (client : Client σ) (s : Session σ) (c : VendorCall) :
    Option Answer × Session σ :=
  let (reply, state) := client.reply c s.state
  (reply.answer, { state, calls := c :: s.calls, cancelled := s.cancelled || reply.cancels })

/-- Calls in order. -/
def trace {σ : Type} (s : Session σ) : List VendorCall := s.calls.reverse

end Session

/-- A client whose answer depends on the call alone. -/
def Client.ofFunction (id : String) (answer : VendorCall → Answer) : Client Unit :=
  ⟨id, fun c _ => (⟨some (answer c), false⟩, ())⟩

end CloudAudit
