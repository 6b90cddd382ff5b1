import CloudAudit.Json.Basic
import CloudAudit.Path

/-!
Templates: text with expressions between `{{` and `}}`. An expression is a literal or a path.
-/

namespace CloudAudit

inductive Expr where
  | literal (v : Json)
  | path (p : Path)
  deriving Inhabited

inductive Segment where
  | text (s : String)
  | expr (e : Expr)
  deriving Inhabited

/-- A template: its source and the segments in order. -/
structure Template where
  source : String
  segments : List Segment
  deriving Inhabited

namespace Template

/-- Cuts at the first place where `c` stands twice: the text before and the text after. -/
def cutAtDouble (c : Char) : List Char → Option (List Char × List Char)
  | a :: b :: rest =>
    if a = c ∧ b = c then some ([], rest)
    else (cutAtDouble c (b :: rest)).map fun (before, after) => (a :: before, after)
  | _ => none

/-- Nothing but the two marks is lost by a cut. -/
theorem eq_of_cutAtDouble {c : Char} {cs before after : List Char}
    (h : cutAtDouble c cs = some (before, after)) : cs = before ++ c :: c :: after := by
  fun_induction cutAtDouble c cs generalizing before after with
  | case1 a b rest eq =>
    obtain ⟨rfl, rfl⟩ := eq
    simp_all
  | case2 a b rest _ ih =>
    obtain ⟨⟨x, y⟩, hx, hy⟩ := Option.map_eq_some_iff.1 h
    simp only [Prod.mk.injEq] at hy
    obtain ⟨rfl, rfl⟩ := hy
    simp [ih hx]
  | case3 => simp at h

theorem length_lt_of_cutAtDouble {c : Char} {cs before after : List Char}
    (h : cutAtDouble c cs = some (before, after)) : after.length < cs.length := by
  rw [eq_of_cutAtDouble h]
  simp only [List.length_append, List.length_cons]
  omega

/-- Length in bytes of UTF-8. -/
def byteLength (cs : List Char) : Nat := cs.foldl (fun n c => n + c.utf8Size) 0

/-- Text between equal quotes. -/
def quoted? (cs : List Char) : Option (List Char) :=
  match cs with
  | q :: rest =>
    if (q = '\'' ∨ q = '"') ∧ rest.getLast? = some q then some rest.dropLast else none
  | [] => none

/-- A number: it starts with a digit or a minus and is an integer of 64 bits or a finite decimal. -/
def number? (cs : List Char) : Option Number :=
  match cs with
  | c :: _ =>
    if Number.isDigit c || c = '-' then
      match Number.int64? cs with
      | some n => some (.integer n)
      | none => (Number.finite? cs).map .double
    else none
  | [] => none

/-- A trimmed body: a literal where it can be one, else a path. -/
def parseExpr (body : List Char) : Except TemplateError Expr :=
  if body = "true".toList then .ok (.literal (.bool true))
  else if body = "false".toList then .ok (.literal (.bool false))
  else if body = "null".toList then .ok (.literal .null)
  else match quoted? body with
    | some text => .ok (.literal (.string (String.ofList text)))
    | none => match number? body with
      | some n => .ok (.literal (.number n))
      | none => (Path.parse (String.ofList body)).map .path

/-- A text segment, left out when there is no text. -/
def textSegment (cs : List Char) : List Segment :=
  if cs = [] then [] else [.text (String.ofList cs)]

/-- Segments of `cs`, which starts at byte `offset` of `source`. -/
def parseFrom (source : String) (offset : Nat) (cs : List Char) :
    Except TemplateError (List Segment) :=
  match _opened : cutAtDouble '\x7b' cs with
  | none => .ok (textSegment cs)
  | some (before, after) =>
    match _closed : cutAtDouble '\x7d' after with
    | none => .error (.unclosed source (offset + byteLength before))
    | some (body, rest) =>
      let trimmed := Text.trim body
      if trimmed = [] then .error (.emptyExpression source)
      else do
        let expr ← parseExpr trimmed
        let more ← parseFrom source (offset + byteLength before + byteLength body + 4) rest
        pure (textSegment before ++ .expr expr :: more)
  termination_by cs.length
  decreasing_by
    have first := length_lt_of_cutAtDouble _opened
    have second := length_lt_of_cutAtDouble _closed
    omega

/-- Reads a template. -/
def parse (source : String) : Except TemplateError Template :=
  (parseFrom source 0 source.toList).map fun segments => ⟨source, segments⟩

theorem parseFrom_nil (source : String) (offset : Nat) : parseFrom source offset [] = .ok [] := by
  rw [parseFrom]
  rfl

/-- A text that is one marker reads as the expression inside. -/
theorem parse_marker {text : String} {after body : List Char} {e : Expr}
    (opened : cutAtDouble '\x7b' text.toList = some ([], after))
    (closed : cutAtDouble '\x7d' after = some (body, [])) (filled : Text.trim body ≠ [])
    (read : parseExpr (Text.trim body) = .ok e) : parse text = .ok ⟨text, [.expr e]⟩ := by
  rw [parse, parseFrom]
  split
  · next absent =>
    rw [opened] at absent
    cases absent
  · next found =>
    rw [opened] at found
    cases found
    split
    · next absent =>
      rw [closed] at absent
      cases absent
    · next found =>
      rw [closed] at found
      cases found
      rw [if_neg filled, read, parseFrom_nil]
      rfl

/-- The expression of a template that is exactly one marker. -/
def single? (t : Template) : Option Expr :=
  match t.segments with
  | [.expr e] => some e
  | _ => none

/-- No expression at all. -/
def isLiteral (t : Template) : Bool :=
  t.segments.all fun
    | .text _ => true
    | .expr _ => false

/-- Paths in order of appearance. -/
def paths (t : Template) : List Path :=
  t.segments.filterMap fun
    | .expr (.path p) => some p
    | _ => none

end Template

end CloudAudit
