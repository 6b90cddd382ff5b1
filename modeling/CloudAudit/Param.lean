import CloudAudit.Template

/-!
Parameter trees: values whose texts are templates.
-/

namespace CloudAudit

inductive Param where
  | template (t : Template)
  | literal (v : Json)
  | list (items : List Param)
  | map (fields : List (String × Param))
  deriving Inhabited

namespace Param

mutual

/-- Every text becomes a template; numbers, booleans and nulls stay. -/
def compile : Json → Except TemplateError Param
  | .string s => (Template.parse s).map .template
  | .array items => (compileItems items).map .list
  | .object fields => (compileFields fields).map .map
  | .null => .ok (.literal .null)
  | .bool b => .ok (.literal (.bool b))
  | .number n => .ok (.literal (.number n))

def compileItems : List Json → Except TemplateError (List Param)
  | [] => .ok []
  | v :: rest => do
    let p ← compile v
    let ps ← compileItems rest
    pure (p :: ps)

/-- Fields in order, or the first fault. -/
def compileFields : List (String × Json) → Except TemplateError (List (String × Param))
  | [] => .ok []
  | (k, v) :: rest => do
    let p ← compile v
    let ps ← compileFields rest
    pure ((k, p) :: ps)

end

end Param

end CloudAudit
