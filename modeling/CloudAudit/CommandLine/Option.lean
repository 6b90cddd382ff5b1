import CloudAudit.Number.Text

/-!
Options on a command line: long names after two dashes, single letters after one, values after an
equality sign or in the next word.
-/

namespace CloudAudit.CommandLine

/-- What may follow an option. -/
inductive OptionKind where
  | switch
  /-- One value, given at most once. -/
  | single
  /-- One value each time it is given. -/
  | repeated
  deriving DecidableEq, Repr

/-- Which values an option takes. -/
inductive ValueKind where
  | text
  /-- A location, which is not empty. -/
  | location
  /-- A number of 64 bits. -/
  | count
  deriving DecidableEq, Repr

def ValueKind.accepts : ValueKind → String → Bool
  | text, _ => true
  | location, v => v ≠ ""
  | count, v => (Number.uint64? v.toList).isSome

structure OptionSpec where
  long : String
  short : Option Char := none
  kind : OptionKind := .single
  value : ValueKind := .text
  deriving DecidableEq, Repr

/-- Why a command line is no command. -/
inductive Stop where
  /-- Help is asked for. -/
  | help
  /-- The version is asked for. -/
  | version
  /-- It does not follow the rules. -/
  | usage
  deriving DecidableEq, Repr

/-- Names and values of the options given so far, in order. -/
abbrev Given := List (String × String)

namespace Given

def value? (g : Given) (name : String) : Option String := g.lookup name

def values (g : Given) (name : String) : List String := (g.filter (·.1 = name)).map (·.2)

end Given

def helpName : String := "help"

def versionName : String := "version"

/-- Takes an option in. Only repeated ones may be given twice; help and version end the reading. -/
def put (given : Given) (spec : OptionSpec) (value : String) : Except Stop Given :=
  if spec.long = helpName then .error .help
  else if spec.long = versionName then .error .version
  else if spec.kind ≠ .repeated && (given.value? spec.long).isSome then .error .usage
  else if spec.kind ≠ .switch && !spec.value.accepts value then .error .usage
  else .ok (given ++ [(spec.long, value)])

/-- Letters after one dash; an option at their end may wait for its value. -/
def putLetters (specs : List OptionSpec) : List Char → Given → Except Stop (Given × Option OptionSpec)
  | [], given => .ok (given, none)
  | c :: rest, given => match specs.find? (·.short = some c) with
    | none => .error .usage
    | some spec =>
      if spec.kind = .switch then do
        let given ← put given spec ""
        putLetters specs rest given
      else match rest with
        | [] => .ok (given, some spec)
        | '=' :: value => (put given spec (String.ofList value)).map fun given => (given, none)
        | value => (put given spec (String.ofList value)).map fun given => (given, none)

/-- A name after two dashes; without a value of its own it may wait for one. -/
def putLong (specs : List OptionSpec) (cs : List Char) (given : Given) :
    Except Stop (Given × Option OptionSpec) :=
  let (name, value) := cs.span (· ≠ '=')
  match specs.find? (·.long = String.ofList name) with
  | none => .error .usage
  | some spec => match value with
    | [] =>
      if spec.kind = .switch then (put given spec "").map fun given => (given, none)
      else .ok (given, some spec)
    | _ :: value =>
      if spec.kind = .switch then .error .usage
      else (put given spec (String.ofList value)).map fun given => (given, none)

/-- Whether a word is an option and no value. -/
def isDashed (word : String) : Bool :=
  match word.toList with
  | '-' :: _ :: _ => true
  | _ => false

/-- Reads options up to the first word that is none; two dashes alone end them. -/
def readOptions (specs : List OptionSpec) : Given → List String → Except Stop (Given × List String)
  | given, [] => .ok (given, [])
  | given, word :: rest =>
    if word = "--" then (if rest.isEmpty then .ok (given, []) else .error .usage)
    else if !isDashed word then .ok (given, word :: rest)
    else
      let found := match word.toList with
        | '-' :: '-' :: cs => putLong specs cs given
        | cs => putLetters specs (cs.drop 1) given
      match found, rest with
      | .error stop, _ => .error stop
      | .ok (given, none), rest => readOptions specs given rest
      | .ok (_, some _), [] => .error .usage
      | .ok (given, some spec), value :: rest =>
        if isDashed value then .error .usage
        else match put given spec value with
          | .error stop => .error stop
          | .ok given => readOptions specs given rest

end CloudAudit.CommandLine
