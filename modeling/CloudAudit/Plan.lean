/-!
Execution plans. Discoveries wait on one another; a plan groups them into waves, where each wave
waits on earlier waves only and starts as early as possible.
-/

namespace CloudAudit

/-- A discovery as the planner sees it: its id and what it waits on, repeats allowed. -/
structure Dependency where
  id : String
  references : List String
  deriving DecidableEq, Repr

inductive PlanError where
  | duplicateId (id : String)
  | selfReference (id : String)
  | danglingReference (id reference : String)
  /-- A closed walk: the first id stands again at the end. -/
  | cycle (path : List String)
  deriving DecidableEq, Repr

namespace PlanError

def message : PlanError → String
  | duplicateId id => "Duplicate discovery id '" ++ id ++ "'"
  | selfReference id => "Discovery '" ++ id ++ "' references itself"
  | danglingReference id reference =>
    "Discovery '" ++ id ++ "' references unknown discovery '" ++ reference ++ "'"
  | cycle path => "Dependency cycle detected: " ++ String.intercalate " -> " path

end PlanError

/-- Waves in order of execution. -/
structure Plan where
  waves : List (List String)
  deriving DecidableEq, Repr, Inhabited

namespace Plan

/-- All ids, wave after wave. -/
def order (p : Plan) : List String := p.waves.flatten

def position? (p : Plan) (id : String) : Option Nat := p.order.idxOf? id

/-- First id that already stood earlier in the list. -/
def firstRepeat? : List String → List String → Option String
  | _, [] => none
  | seen, id :: rest => if id ∈ seen then some id else firstRepeat? (id :: seen) rest

/-- First bad reference of one discovery: to itself, or to an id that is not listed. -/
def badReference? (ids : List String) (d : Dependency) : Option PlanError :=
  d.references.findSome? fun reference =>
    if reference = d.id then some (.selfReference d.id)
    else if reference ∈ ids then none
    else some (.danglingReference d.id reference)

/-- A discovery not yet placed: its distinct references and how many of them are not yet placed. -/
structure Pending where
  id : String
  references : List String
  missing : Nat
  deriving DecidableEq, Repr

/-- Distinct references in ascending order. -/
def distinctReferences (d : Dependency) : List String :=
  d.references.eraseDups.mergeSort fun a b => decide (a ≤ b)

/-- All discoveries as not yet placed, in ascending order of ids. -/
def pendingOf (ds : List Dependency) : List Pending :=
  (ds.mergeSort fun a b => decide (a.id ≤ b.id)).map fun d =>
    ⟨d.id, distinctReferences d, (distinctReferences d).length⟩

/-- How many references of a discovery a wave places. -/
def hits (wave : List String) (p : Pending) : Nat := p.references.countP (· ∈ wave)

/-- Counts down the missing references by those a wave places. -/
def settle (wave : List String) (p : Pending) : Pending :=
  { p with missing := p.missing - hits wave p }

/-- Ids that miss nothing. -/
def ready (pending : List Pending) : List String :=
  (pending.filter (·.missing = 0)).map (·.id)

/-- What remains once a wave is placed. -/
def advance (wave : List String) (pending : List Pending) : List Pending :=
  (pending.filter (·.missing ≠ 0)).map (settle wave)

theorem length_advance_lt {pending : List Pending} (wave : List String)
    (h : ready pending ≠ []) : (advance wave pending).length < pending.length := by
  have some_ready : pending.filter (·.missing = 0) ≠ [] := fun none_ready => h (by
    simp [ready, none_ready])
  obtain ⟨p, member⟩ := List.exists_mem_of_ne_nil _ some_ready
  have member := List.mem_filter.1 member
  simp only [advance, List.length_map]
  exact List.length_filter_lt_length_iff_exists.2 ⟨p, member.1, by simpa using member.2⟩

/-- Waves from the ready ids on, until no id is ready; and what is left then. -/
def levels (pending : List Pending) : List (List String) × List Pending :=
  if _some : ready pending = [] then ([], pending)
  else
    let wave := ready pending
    let (waves, left) := levels (advance wave pending)
    (wave :: waves, left)
  termination_by pending.length
  decreasing_by exact length_advance_lt _ _some

/-- First reference, in ascending order, that is left over. -/
def leftoverReference? (left : List Pending) (id : String) : Option String :=
  (left.find? (·.id = id)).bind fun p =>
    p.references.find? fun r => left.any (·.id = r)

/--
Follows leftover references from the last id of the walk until one repeats, and gives the part of
the walk from its first visit, closed. The walk has no repeats, so the number of leftover ids
bounds it.
-/
def closeWalk (left : List Pending) : Nat → List String → String → List String
  | 0, walk, _ => walk
  | steps + 1, walk, current =>
    match leftoverReference? left current with
    | none => walk
    | some next =>
      match walk.idxOf? next with
      | some start => walk.drop start ++ [next]
      | none => closeWalk left steps (walk ++ [next]) next

/-- A cycle among leftover ids, searched from the smallest one. -/
def findCycle (left : List Pending) : List String :=
  match left with
  | [] => []
  | first :: _ => closeWalk left left.length [first.id] first.id

/-- Waves of all discoveries, or the first defect. -/
def build (ds : List Dependency) : Except PlanError Plan :=
  let ids := ds.map (·.id)
  match firstRepeat? [] ids with
  | some id => .error (.duplicateId id)
  | none => match ds.findSome? (badReference? ids) with
    | some e => .error e
    | none => match levels (pendingOf ds) with
      | (waves, []) => .ok ⟨waves⟩
      | (_, left) => .error (.cycle (findCycle left))

end Plan

end CloudAudit
