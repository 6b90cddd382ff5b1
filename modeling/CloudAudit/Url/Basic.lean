import CloudAudit.Url.Host

/-!
URLs and their text.
-/

namespace CloudAudit

/-- Who is asked: user information, host and port. -/
structure Authority where
  username : String := ""
  password : Option String := none
  host : Url.Host
  port : Option Nat := none
  deriving DecidableEq, Repr

inductive UrlPath where
  /-- Text without segments, of URLs such as mail addresses. -/
  | opaqueText (text : String)
  /-- Segments, each after a slash. -/
  | segments (names : List String)
  deriving DecidableEq, Repr

structure Url where
  scheme : String
  authority : Option Authority
  path : UrlPath
  query : Option String := none
  fragment : Option String := none
  deriving DecidableEq, Repr

namespace Url

/-- Schemes of the web with their usual ports; files have none. -/
def specialPorts : List (String × Option Nat) :=
  [("http", some 80), ("https", some 443), ("ws", some 80), ("wss", some 443), ("ftp", some 21),
    ("file", none)]

def isSpecialScheme (scheme : String) : Bool := (specialPorts.lookup scheme).isSome

def isSpecial (u : Url) : Bool := isSpecialScheme u.scheme

def isHttp (u : Url) : Bool := u.scheme = "http" || u.scheme = "https"

def hasHost (u : Url) : Bool := u.authority.any fun a => a.host ≠ .domain ""

end Url

namespace Authority

def render (a : Authority) : String :=
  let password := match a.password with
    | some p => ":" ++ p
    | none => ""
  let user := a.username ++ password
  (if user = "" then "" else user ++ "@") ++ a.host.render ++ match a.port with
    | some n => ":" ++ toString n
    | none => ""

/-- The same host without user information. -/
def anonymous (a : Authority) : Authority := { a with username := "", password := none }

end Authority

namespace UrlPath

def render : UrlPath → String
  | opaqueText text => text
  | segments names => String.join (names.map ("/" ++ ·))

end UrlPath

namespace Url

def render (u : Url) : String :=
  u.scheme ++ ":" ++ (match u.authority with
    | some a => "//" ++ a.render
    | none => "") ++ u.path.render ++ (match u.query with
    | some q => "?" ++ q
    | none => "") ++ match u.fragment with
    | some f => "#" ++ f
    | none => ""

end Url

end CloudAudit
