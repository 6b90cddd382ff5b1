import CloudAudit.Url.Basic

/-!
Reading URLs the way browsers do.
-/

namespace CloudAudit.Url

/-- Characters that mean nothing anywhere in a URL. -/
def isIgnored (c : Char) : Bool := c = '\t' || c = '\n' || c = '\r'

/-- The text without blanks and controls at its ends, and without ignored characters. -/
def cleaned (text : String) : List Char :=
  let isEnd (c : Char) := c.toNat ≤ 32
  let inner := ((text.toList.dropWhile isEnd).reverse.dropWhile isEnd).reverse
  inner.filter fun c => !isIgnored c

def isSchemeChar (c : Char) : Bool := c.isAlphanum || c = '+' || c = '-' || c = '.'

/-- The scheme and the text after its colon. -/
def splitScheme? (cs : List Char) : Option (String × List Char) :=
  match cs.span isSchemeChar with
  | (first :: name, ':' :: rest) =>
    if first.isAlpha then some (String.ofList ((first :: name).map Char.toLower), rest) else none
  | _ => none

/-- Whether a character is a slash; a backslash is one for special schemes. -/
def isSlash (special : Bool) (c : Char) : Bool := c = '/' || (special && c = '\\')

def endsAuthority (special : Bool) (c : Char) : Bool :=
  isSlash special c || c = '?' || c = '#'

/-- What stands before and after the last of a character. -/
def splitLast? (mark : Char) : List Char → Option (List Char × List Char)
  | [] => none
  | c :: rest => match splitLast? mark rest with
    | some (before, after) => some (c :: before, after)
    | none => if c = mark then some ([], rest) else none

/-- User name and password, escaped; an empty password is none. -/
def readUserInfo (cs : List Char) : String × Option String :=
  let (name, rest) := cs.span (· ≠ ':')
  let escaped (cs : List Char) := String.ofList (encode inUserInfo cs)
  match rest with
  | _ :: password => (escaped name, if password = [] then none else some (escaped password))
  | [] => (escaped name, none)

/-- The host, and the rest from the colon of a port on; a colon between brackets is none. -/
def splitHost : Bool → List Char → List Char × List Char
  | _, [] => ([], [])
  | inside, c :: rest =>
    if c = ':' && !inside then ([], c :: rest)
    else
      let inside := if c = '[' then true else if c = ']' then false else inside
      let (host, after) := splitHost inside rest
      (c :: host, after)

/-- A port after its colon; the usual port of a scheme is left out, and so is an empty one. -/
def readPort (scheme : String) (cs : List Char) : Except UrlError (Option Nat) :=
  if cs = [] then .ok none
  else match Number.natural? cs with
    | some n =>
      if 65535 < n then .error .invalidPort
      else .ok (if specialPorts.lookup scheme = some (some n) then none else some n)
    | none => .error .invalidPort

/-- Host and port. Only schemes that are not special may leave the host empty. -/
def readHostPort (scheme : String) (cs : List Char) :
    Except UrlError (Host × Option Nat) := do
  let special := isSpecialScheme scheme
  let (host, rest) := splitHost false cs
  if special && host = [] then .error .emptyHost
  let host' ← if special then parseHost host else parseOpaqueHost host
  match rest with
  | _ :: port =>
    if host = [] then .error .emptyHost
    let port ← readPort scheme port
    pure (host', port)
  | [] => pure (host', none)

/-- The authority in its text. Something must stand after the user information. -/
def readAuthority (scheme : String) (cs : List Char) : Except UrlError Authority :=
  match splitLast? '@' cs with
  | none => (readHostPort scheme cs).map fun (host, port) => { host, port }
  | some (user, rest) => do
    if rest = [] then .error .emptyHost
    let (username, password) := readUserInfo user
    let (host, port) ← readHostPort scheme rest
    pure { username, password, host, port }

/-! Paths. -/

/-- Spellings of the segment that means the same place. -/
def isDot (s : List Char) : Bool := ["." , "%2e"].contains (String.ofList (s.map Char.toLower))

/-- Spellings of the segment that means the place above. -/
def isDotDot (s : List Char) : Bool :=
  ["..", "%2e.", ".%2e", "%2e%2e"].contains (String.ofList (s.map Char.toLower))

/-- Pieces between slashes; there is always one. -/
def splitSlashes (special : Bool) : List Char → List (List Char)
  | [] => [[]]
  | c :: rest =>
    if isSlash special c then [] :: splitSlashes special rest
    else match splitSlashes special rest with
      | [] => [[c]]
      | piece :: more => (c :: piece) :: more

/-- Segments of a path, those so far in reverse; dots at the end leave an empty segment. -/
def walkSegments (done : List String) : List (List Char) → List String
  | [] => done.reverse
  | s :: rest =>
    let text := String.ofList (encode inPath s)
    if isDotDot s then walkSegments ((if rest = [] then [""] else []) ++ done.drop 1) rest
    else if isDot s then walkSegments ((if rest = [] then [""] else []) ++ done) rest
    else walkSegments (text :: done) rest

/-- Segments of a path; a special scheme always has a path. -/
def readPath (special : Bool) (cs : List Char) : List String :=
  match cs with
  | [] => if special then [""] else []
  | c :: rest => walkSegments [] (splitSlashes special (if isSlash special c then rest else c :: rest))

/-- Path, query and fragment of the text after the authority. -/
def splitTail (cs : List Char) : List Char × Option (List Char) × Option (List Char) :=
  let (front, fragment) := match cs.span (· ≠ '#') with
    | (front, _ :: fragment) => (front, some fragment)
    | (front, []) => (front, none)
  match front.span (· ≠ '?') with
  | (path, _ :: query) => (path, some query, fragment)
  | (path, []) => (path, none, fragment)

def readQuery (special : Bool) (q : Option (List Char)) : Option String :=
  q.map fun cs => String.ofList (encode (inQuery special) cs)

def readFragment (f : Option (List Char)) : Option String :=
  f.map fun cs => String.ofList (encode inFragment cs)

/-- A URL with an authority, after the two slashes. -/
def readWithAuthority (scheme : String) (cs : List Char) : Except UrlError Url := do
  let special := isSpecialScheme scheme
  let (before, rest) := cs.span fun c => !endsAuthority special c
  let authority ← readAuthority scheme before
  let (path, query, fragment) := splitTail rest
  pure { scheme, authority := some authority, path := .segments (readPath special path),
         query := readQuery special query, fragment := readFragment fragment }

/-- A file: the local host is none, and without slashes the path starts at the top all the same. -/
def readFile (cs : List Char) : Except UrlError Url := do
  let (host, rest) ← match cs with
    | a :: b :: rest =>
      if isSlash true a && isSlash true b then
        let (host, rest) := rest.span fun c => !endsAuthority true c
        if host = [] then .ok (Host.domain "", rest)
        else
          let h ← parseHost host
          .ok (if h = .domain "localhost" then .domain "" else h, rest)
      else .ok (Host.domain "", cs)
    | cs => .ok (Host.domain "", cs)
  let (path, query, fragment) := splitTail rest
  pure { scheme := "file", authority := some { host }, path := .segments (readPath true path),
         query := readQuery true query, fragment := readFragment fragment }

/-- A URL without special scheme: with authority, with a path from the top, or opaque. -/
def readOther (scheme : String) (cs : List Char) : Except UrlError Url :=
  match cs with
  | '/' :: '/' :: rest => readWithAuthority scheme rest
  | cs =>
    let (path, query, fragment) := splitTail cs
    let path := match path with
      | '/' :: _ => UrlPath.segments (readPath false path)
      | _ => .opaqueText (String.ofList (encode isControl path))
    .ok { scheme, authority := none, path, query := readQuery false query,
          fragment := readFragment fragment }

/-- Reads a URL; there is nothing it could be relative to. -/
def parse (text : String) : Except UrlError Url :=
  match splitScheme? (cleaned text) with
  | none => .error .relative
  | some (scheme, rest) =>
    if scheme = "file" then readFile rest
    else if isSpecialScheme scheme then
      readWithAuthority scheme (rest.dropWhile (isSlash true))
    else readOther scheme rest

/-! Building on URLs. -/

/-- Names as they stand in a path: escaped, with no meaning of slashes and marks in them. -/
def segmentText (special : Bool) (name : String) : List Char :=
  encode (inSegment special) (name.toList.filter fun c => !isIgnored c)

/-- A path with one more segment; a path that is only a slash gives way to it. -/
def appendSegment (names : List String) (s : String) : List String :=
  if names = [""] then [s] else names ++ [s]

/--
Extends a path by a name. Names of dots alone are left out; where such a name only appears once the
ignored characters are gone, it moves in the path like one that was read.
-/
def extendPath (special : Bool) (names : List String) (name : String) : List String :=
  if name = "." || name = ".." then names
  else
    let text := segmentText special name
    if isDotDot text then (if names = [""] then [""] else names.dropLast ++ [""])
    else if isDot text then appendSegment names ""
    else appendSegment names (String.ofList text)

/-- A path without the empty segment after a final slash, unless it is only that slash. -/
def dropEmptyEnd (names : List String) : List String :=
  if names ≠ [""] && names.getLast? = some "" then names.dropLast else names

/-- The URL with names added to its path; none when its path is opaque. -/
def extend? (u : Url) (names : List String) : Option Url :=
  match u.path with
  | .opaqueText _ => none
  | .segments path =>
    some { u with path := .segments (names.foldl (extendPath u.isSpecial) (dropEmptyEnd path)) }

/-- A form: names and values between equality signs and ampersands. -/
def formText (pairs : List (String × String)) : String :=
  String.intercalate "&" (pairs.map fun (k, v) =>
    String.ofList (encodeForm k.toList ++ '=' :: encodeForm v.toList))

/-- The URL with a form added to its query. -/
def addForm (u : Url) (pairs : List (String × String)) : Url :=
  if pairs.isEmpty then u
  else
    let front := match u.query with
      | none | some "" => ""
      | some q => q ++ "&"
    { u with query := some (front ++ formText pairs) }

/-- Whether the escapes of a part of a URL stand for text. -/
def isText (part : String) : Bool := (decode? part.toList).isSome

/-- The URL without user information; what is no text when its escapes are read stays. -/
def anonymous (u : Url) : Url :=
  { u with authority := u.authority.map fun a =>
      if isText a.username && (a.username ≠ "" || a.password.all isText) then a.anonymous else a }

end CloudAudit.Url
