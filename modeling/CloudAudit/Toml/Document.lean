import CloudAudit.Toml.Text

/-!
TOML documents: values, lines, and the table that a text denotes.
-/

namespace CloudAudit.Toml

/-- How deeply values may nest. -/
def depthLimit : Nat := 80

mutual

/-- One value and the text after it. The fuel bounds the number of steps. -/
def value : Nat → Nat → List Char → Option (Toml × List Char)
  | 0, _, _ => none
  | fuel + 1, depth, cs => match cs with
    | '[' :: rest =>
      if depth = 0 then none
      else (items fuel (depth - 1) rest).map fun (vs, rest) => (.array vs, rest)
    | '\x7b' :: rest =>
      if depth = 0 then none
      else match skipBlank rest with
        | '\x7d' :: rest => some (.table .inline [], rest)
        | rest => do
          let (pairs, rest) ← pairs fuel (depth - 1) rest
          let entries ← pairs.foldlM (fun entries (path, v) => Entries.define v path entries) []
          pure (.table .inline entries, rest)
    | '"' :: _ | '\'' :: _ =>
      (quoted cs).map fun (found, rest) => (.text (String.ofList found), rest)
    | cs => bare cs

/-- Values of an array after its bracket or a comma. -/
def items : Nat → Nat → List Char → Option (List Toml × List Char)
  | 0, _, _ => none
  | fuel + 1, depth, cs => do
    match ← skipLines false cs with
    | ']' :: rest => pure ([], rest)
    | cs =>
      let (v, rest) ← value fuel depth cs
      match ← skipLines false rest with
      | ',' :: rest =>
        let (vs, rest) ← items fuel depth rest
        pure (v :: vs, rest)
      | ']' :: rest => pure ([v], rest)
      | _ => none

/-- Keys and values between braces. -/
def pairs : Nat → Nat → List Char → Option (List (List String × Toml) × List Char)
  | 0, _, _ => none
  | fuel + 1, depth, cs => do
    let (path, v, rest) ← pair fuel depth cs
    match skipBlank rest with
    | ',' :: rest =>
      let (ps, rest) ← pairs fuel depth rest
      pure ((path, v) :: ps, rest)
    | '\x7d' :: rest => pure ([(path, v)], rest)
    | _ => none

/-- A key, its equality sign and its value. -/
def pair : Nat → Nat → List Char → Option (List String × Toml × List Char)
  | 0, _, _ => none
  | fuel + 1, depth, cs => do
    let (path, rest) ← key cs
    match rest with
    | '=' :: rest =>
      let (v, rest) ← value fuel depth (skipBlank rest)
      pure (path, v, rest)
    | _ => none

end

/-- A header between its brackets, and the next line. -/
def header (closing : List Char) (cs : List Char) : Option (List String × List Char) := do
  let (path, rest) ← key cs
  if closing.isPrefixOf rest then
    let rest ← endLine (rest.drop closing.length)
    pure (path, rest)
  else none

/-- One line that is not blank, and the next. -/
def line (fuel : Nat) : List Char → Option (Line × List Char)
  | '[' :: '[' :: rest => (header [']', ']'] rest).map fun (path, rest) => (.nextHeader path, rest)
  | '[' :: rest => (header [']'] rest).map fun (path, rest) => (.header path, rest)
  | cs => do
    let (path, v, rest) ← pair fuel depthLimit cs
    let rest ← endLine rest
    pure (.entry path v, rest)

/-- The lines of a text; the fuel bounds their number. -/
def lines (fuel : Nat) : Nat → List Char → Option (List Line)
  | 0, _ => none
  | count + 1, cs => do
    match ← skipLines false cs with
    | [] => pure []
    | cs =>
      let (first, rest) ← line fuel cs
      let more ← lines fuel count rest
      pure (first :: more)

/-- A mark of byte order may stand before a text. -/
def dropMark : List Char → List Char
  | '\ufeff' :: rest => rest
  | cs => cs

/-- The table that a text denotes. -/
def parse? (text : String) : Option Entries :=
  let cs := dropMark text.toList
  (lines (4 * cs.length + 4) (cs.length + 1) cs).bind ofLines?

end CloudAudit.Toml
