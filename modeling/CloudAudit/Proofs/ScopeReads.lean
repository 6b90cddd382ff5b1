import CloudAudit.Resolve

set_option autoImplicit false

/- What resolving reads. A scope shows itself only through the values that the paths
of a template lead to, so scopes that agree on those resolve the template alike. -/
namespace CloudAudit

namespace Param

mutual

/-- Paths of a parameter tree. -/
def paths : Param → List Path
  | .template t => t.paths
  | .literal _ => []
  | .list items => itemPaths items
  | .map fields => fieldPaths fields

def itemPaths : List Param → List Path
  | [] => []
  | p :: rest => p.paths ++ itemPaths rest

/-- Paths of named parameters; the names are no templates. -/
def fieldPaths : List (String × Param) → List Path
  | [] => []
  | (_, p) :: rest => p.paths ++ fieldPaths rest

end

end Param

namespace Scope

theorem lookup_bind (s : Scope) (name x : String) (b : Binding) :
    (s.bind name b).lookup x = if x = name then some b else s.lookup x := by
  obtain ⟨frames⟩ := s
  by_cases same : x = name
  · subst same
    cases frames with
    | nil => simp [bind, lookup, find?]
    | cons frame outer => simp [bind, lookup, find?]
  · have other : (x == name) = false := by simpa using same
    cases frames with
    | nil => simp [bind, lookup, find?, List.lookup_cons, other, same]
    | cons frame outer =>
      simp only [bind, lookup, find?, List.findSome?_cons, List.lookup_cons, other, same, ↓reduceIte]

/-- A path that starts at a new binding is led by that binding alone. -/
theorem resolvePath_bind (s : Scope) (name : String) (b : Binding) (p : Path) :
    (s.bind name b).resolvePath p =
      if p.root? = some name then (empty.bind name b).resolvePath p else s.resolvePath p := by
  obtain ⟨text, steps⟩ := p
  rcases steps with _ | ⟨step, rest⟩
  · rfl
  · cases step with
    | key root =>
      by_cases same : root = name
      · simp only [resolvePath, Path.root?, lookup_bind, same, ↓reduceIte]
      · simp only [resolvePath, Path.root?, lookup_bind, same, Option.some.injEq, ↓reduceIte]
    | index n => rfl
    | flatten => rfl

/-- Two scopes lead each of these paths to the same value, or both nowhere. -/
def Agree (paths : List Path) (s t : Scope) : Prop :=
  ∀ p ∈ paths, s.resolvePath p = t.resolvePath p

section

variable {paths more : List Path} {s t : Scope}

theorem Agree.append_left (agree : Agree (paths ++ more) s t) : Agree paths s t :=
  fun p member => agree p (List.mem_append_left _ member)

theorem Agree.append_right (agree : Agree (paths ++ more) s t) : Agree more s t :=
  fun p member => agree p (List.mem_append_right _ member)

theorem Agree.bind (agree : Agree paths s t) (name : String) (b : Binding) :
    Agree paths (s.bind name b) (t.bind name b) := by
  intro p member
  rw [resolvePath_bind s, resolvePath_bind t, agree p member]

/-- A new frame has no binding yet. -/
theorem Agree.enter (agree : Agree paths s t) : Agree paths s.enter t.enter := agree

theorem resolveExpr_congr (e : Expr) (agree : ∀ p, e = .path p → s.resolvePath p = t.resolvePath p) :
    s.resolveExpr e = t.resolveExpr e := by
  cases e with
  | literal v => rfl
  | path p => exact agree p rfl

theorem resolveSegments_congr (segments : List Segment)
    (agree : ∀ p, .expr (.path p) ∈ segments → s.resolvePath p = t.resolvePath p) :
    s.resolveSegments segments = t.resolveSegments segments := by
  induction segments with
  | nil => rfl
  | cons segment rest ih =>
    have later := ih fun p member => agree p (List.mem_cons_of_mem _ member)
    cases segment with
    | text text => rw [resolveSegments, resolveSegments, later]
    | expr e =>
      have here : s.resolveExpr e = t.resolveExpr e := resolveExpr_congr e fun p same =>
        agree p (same ▸ List.mem_cons_self)
      rw [resolveSegments, resolveSegments, here, later]

theorem resolve_congr (template : Template) (agree : Agree template.paths s t) :
    s.resolve template = t.resolve template := by
  have known : ∀ p, .expr (.path p) ∈ template.segments → s.resolvePath p = t.resolvePath p :=
    fun p member => agree p (List.mem_filterMap.mpr ⟨_, member, rfl⟩)
  unfold resolve Template.single?
  split
  · next e single =>
    split at single
    · next only =>
      obtain rfl := Option.some.inj single
      exact resolveExpr_congr _ fun p same => known p (by simp [only, same])
    · cases single
  · rw [resolveSegments_congr template.segments known]

mutual

theorem resolveParam_congr : ∀ p : Param, Agree p.paths s t → s.resolveParam p = t.resolveParam p
  | .template template, agree => by
    rw [resolveParam, resolveParam]
    exact resolve_congr template agree
  | .literal v, _ => rfl
  | .list items, agree => by
    rw [resolveParam, resolveParam, resolveItems_congr items agree]
  | .map fields, agree => by
    rw [resolveParam, resolveParam, resolveEntries_congr fields agree]

theorem resolveItems_congr : ∀ items : List Param, Agree (Param.itemPaths items) s t →
    s.resolveItems items = t.resolveItems items
  | [], _ => rfl
  | p :: rest, agree => by
    rw [resolveItems, resolveItems, resolveParam_congr p agree.append_left,
      resolveItems_congr rest agree.append_right]

theorem resolveEntries_congr : ∀ fields : List (String × Param),
    Agree (Param.fieldPaths fields) s t → s.resolveEntries fields = t.resolveEntries fields
  | [], _ => rfl
  | (_, p) :: rest, agree => by
    rw [resolveEntries, resolveEntries, resolveParam_congr p agree.append_left,
      resolveEntries_congr rest agree.append_right]

end

theorem resolveParams_congr (params : List (String × Param))
    (agree : Agree (Param.fieldPaths params) s t) :
    s.resolveParams params = t.resolveParams params := by
  induction params with
  | nil => rfl
  | cons field rest ih =>
    rw [resolveParams, resolveParams, resolveParam_congr field.2 agree.append_left,
      ih agree.append_right]

theorem resolveFields_congr (fields : List (String × Param))
    (agree : Agree (Param.fieldPaths fields) s t) :
    s.resolveFields fields = t.resolveFields fields := by
  induction fields with
  | nil => rfl
  | cons field rest ih =>
    have later := ih agree.append_right
    simp only [resolveFields] at later ⊢
    rw [List.map_cons, List.map_cons, resolveParam_congr field.2 agree.append_left, later]

end

end Scope

end CloudAudit
