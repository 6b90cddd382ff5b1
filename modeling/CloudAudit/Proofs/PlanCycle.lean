import CloudAudit.Proofs.PlanOrder
import Mathlib.Data.List.Chain

set_option autoImplicit false

/- The cycle a plan is refused for. What the waves leave over waits on something left over,
so a walk along leftover references never runs out; it has only finitely many ids to visit, and
the part of it from the first visit of the id that repeats is the cycle. -/
namespace CloudAudit.Plan

open Relation (TransGen)

/-- A closed walk along references that meets no discovery twice but the one it starts from. -/
structure IsCycle (ds : List Dependency) (path : List String) : Prop where
  closed : path.head? = path.getLast?
  simple : path.dropLast.Nodup
  long : 3 ≤ path.length
  waits : path.IsChain (Waits ds)

/-- Each discovery of a cycle waits, through others, on itself. -/
theorem IsCycle.returns {ds : List Dependency} {path : List String} (cycle : IsCycle ds path)
    {id : String} (member : id ∈ path) : TransGen (Waits ds) id id := by
  obtain ⟨first, rest, rfl⟩ : ∃ first rest, path = first :: rest :=
    List.exists_cons_of_length_pos (Nat.lt_of_lt_of_le (by decide) cycle.long)
  have filled : rest ≠ [] := by
    rintro rfl
    exact absurd cycle.long (by simp)
  obtain ⟨middle, last, rfl⟩ := (List.eq_nil_or_concat' rest).resolve_left filled
  obtain rfl : first = last := by
    have closed := cycle.closed
    rw [← List.cons_append, List.getLast?_concat] at closed
    exact Option.some.inj closed
  have reaches : (first :: (middle ++ [first])).Pairwise (TransGen (Waits ds)) :=
    List.isChain_iff_pairwise.mp (cycle.waits.imp fun _ _ => TransGen.single)
  obtain ⟨from_first, between⟩ := List.pairwise_cons.mp reaches
  have around : TransGen (Waits ds) first first := from_first first (by simp)
  rcases List.mem_cons.mp member with rfl | later
  · exact around
  · rcases List.mem_append.mp later with inside | last
    · have back : TransGen (Waits ds) id first :=
        (List.pairwise_append.mp between).2.2 id inside first (List.mem_singleton_self _)
      exact back.trans (from_first id later)
    · rw [List.mem_singleton.mp last]
      exact around

/-- A walk along leftover references, by the first leftover reference of each id, up to the id
that it meets again; from there on it is a cycle. -/
inductive Closes (left : List Pending) : List String → String → List String → Prop
  | close {walk : List String} {current next : String} {start : Nat}
      (reference : leftoverReference? left current = some next)
      (visited : walk.idxOf? next = some start) :
      Closes left walk current (walk.drop start ++ [next])
  | step {walk path : List String} {current next : String}
      (reference : leftoverReference? left current = some next)
      (fresh : walk.idxOf? next = none) (rest : Closes left (walk ++ [next]) next path) :
      Closes left walk current path

/-- There is one way to walk. -/
theorem Closes.unique {left : List Pending} {walk path other : List String} {current : String}
    (one : Closes left walk current path) (two : Closes left walk current other) :
    path = other := by
  induction one with
  | close reference visited =>
    cases two with
    | close reference' visited' =>
      obtain rfl := Option.some.inj (reference.symm.trans reference')
      obtain rfl := Option.some.inj (visited.symm.trans visited')
      rfl
    | step reference' fresh _ =>
      obtain rfl := Option.some.inj (reference.symm.trans reference')
      cases visited.symm.trans fresh
  | step reference fresh _ ih =>
    cases two with
    | close reference' visited =>
      obtain rfl := Option.some.inj (reference.symm.trans reference')
      cases fresh.symm.trans visited
    | step reference' _ rest =>
      obtain rfl := Option.some.inj (reference.symm.trans reference')
      exact ih rest

/-- Everything left over waits on something left over. -/
def Trapped (left : List Pending) : Prop :=
  ∀ p ∈ left, ∃ r ∈ p.references, r ∈ left.map (·.id)

/-- A walk so far: it comes to `current` along leftover references and visits no id twice. -/
structure Walk (left : List Pending) (walk : List String) (current : String) : Prop where
  last : walk.getLast? = some current
  distinct : walk.Nodup
  inside : ∀ id ∈ walk, id ∈ left.map (·.id)
  along : walk.IsChain fun a b => leftoverReference? left a = some b

section

variable {left : List Pending} {walk path : List String} {current next : String}

theorem leftover_of_reference (reference : leftoverReference? left current = some next) :
    ∃ p ∈ left, p.id = current ∧ next ∈ p.references ∧ next ∈ left.map (·.id) := by
  obtain ⟨p, found, chosen⟩ := Option.bind_eq_some_iff.mp reference
  have own := List.find?_some found
  have listed := List.find?_some chosen
  simp only [decide_eq_true_eq] at own
  obtain ⟨q, known, same⟩ := List.any_eq_true.mp listed
  exact ⟨p, List.mem_of_find?_eq_some found, own, List.mem_of_find?_eq_some chosen,
    List.mem_map.mpr ⟨q, known, of_decide_eq_true same⟩⟩

theorem Trapped.exists_reference (trapped : Trapped left) (member : current ∈ left.map (·.id)) :
    ∃ next, leftoverReference? left current = some next := by
  obtain ⟨q, known, own⟩ := List.mem_map.mp member
  have present : (left.find? (·.id = current)).isSome :=
    List.find?_isSome.mpr ⟨q, known, decide_eq_true own⟩
  obtain ⟨p, found⟩ := Option.isSome_iff_exists.mp present
  obtain ⟨r, reference, listed⟩ := trapped p (List.mem_of_find?_eq_some found)
  obtain ⟨s, leftover, same⟩ := List.mem_map.mp listed
  have chosen : (p.references.find? fun r => left.any (·.id = r)).isSome :=
    List.find?_isSome.mpr
      ⟨r, reference, List.any_eq_true.mpr ⟨s, leftover, decide_eq_true same⟩⟩
  obtain ⟨next, first⟩ := Option.isSome_iff_exists.mp chosen
  exact ⟨next, Option.bind_eq_some_iff.mpr ⟨p, found, first⟩⟩

theorem Walk.start {p : Pending} (member : p ∈ left) : Walk left [p.id] p.id where
  last := rfl
  distinct := List.nodup_singleton _
  inside := by
    intro id here
    rw [List.mem_singleton.mp here]
    exact List.mem_map_of_mem member
  along := .singleton _

theorem Walk.current_mem (so_far : Walk left walk current) : current ∈ left.map (·.id) :=
  so_far.inside current (List.mem_of_getLast? so_far.last)

/-- One more reference to an id that was not visited. -/
theorem Walk.step (so_far : Walk left walk current)
    (reference : leftoverReference? left current = some next) (fresh : next ∉ walk) :
    Walk left (walk ++ [next]) next where
  last := List.getLast?_concat
  distinct := List.nodup_append.mpr ⟨so_far.distinct, List.nodup_singleton _, by
    rintro id visited _ here rfl
    exact fresh (List.mem_singleton.mp here ▸ visited)⟩
  inside := by
    intro id member
    rcases List.mem_append.mp member with before | here
    · exact so_far.inside id before
    · obtain ⟨_, _, _, _, listed⟩ := leftover_of_reference reference
      exact List.mem_singleton.mp here ▸ listed
  along := by
    refine List.isChain_append.mpr ⟨so_far.along, .singleton _, fun a last b first => ?_⟩
    obtain rfl : current = a := Option.some.inj (so_far.last.symm.trans last)
    obtain rfl : next = b := Option.some.inj first
    exact reference

/-- Among finitely many ids, a walk that goes on for long enough has closed. -/
theorem Walk.closes (trapped : Trapped left) {steps : Nat} (so_far : Walk left walk current)
    (enough : left.length < steps + walk.length) :
    Closes left walk current (closeWalk left steps walk current) := by
  induction steps generalizing walk current with
  | zero =>
    have within : walk.length ≤ (left.map (·.id)).length :=
      (so_far.distinct.subperm so_far.inside).length_le
    rw [List.length_map] at within
    omega
  | succ steps ih =>
    obtain ⟨next, reference⟩ := trapped.exists_reference so_far.current_mem
    simp only [closeWalk, reference]
    cases visited : walk.idxOf? next with
    | some start => exact .close reference visited
    | none =>
      have fresh : next ∉ walk := List.idxOf?_eq_none_iff.mp visited
      refine .step reference visited (ih (so_far.step reference fresh) ?_)
      rw [List.length_append, List.length_singleton]
      omega

end

section

variable {ds : List Dependency}

/-- What waves leave over that can grow no further is trapped. -/
theorem Sound.trapped (sound : Sound ds) : Trapped (levels (pendingOf ds)).2 := by
  have apart := (pendingOf_ids_perm ds).nodup_iff.mpr sound.distinct
  obtain ⟨waves, rest⟩ := levels_remaining apart _ [] (remaining_pendingOf ds).symm
  have stuck := waves.stuck
  rw [rest]
  generalize [] ++ (levels (pendingOf ds)).1.flatten = placed at stuck ⊢
  intro p member
  obtain ⟨q, pending, rfl⟩ := List.mem_map.mp member
  obtain ⟨listed, fresh⟩ := List.mem_filter.mp pending
  obtain ⟨d, known, rfl⟩ := mem_pendingOf.mp listed
  have waiting : ¬∀ r ∈ d.references, r ∈ placed := by
    intro settled
    have ready : d.id ∈ readyAfter (pendingOf ds) placed :=
      readyAfter_pendingOf.mpr ⟨d, known, rfl, of_decide_eq_true fresh, settled⟩
    rw [stuck] at ready
    cases ready
  push Not at waiting
  obtain ⟨r, reference, missing⟩ := waiting
  obtain ⟨e, other, rfl⟩ := List.mem_map.mp (sound.listed d known r reference)
  refine ⟨e.id, mem_distinctReferences.mpr reference, ?_⟩
  simp only [remaining, List.map_map, List.mem_map, List.mem_filter, decide_eq_true_eq]
  exact ⟨untouched e, ⟨mem_pendingOf.mpr ⟨e, other, rfl⟩, missing⟩, rfl⟩

theorem waits_of_leftover {a b : String}
    (reference : leftoverReference? (levels (pendingOf ds)).2 a = some b)
    (distinct : (ds.map (·.id)).Nodup) : Waits ds a b := by
  have apart := (pendingOf_ids_perm ds).nodup_iff.mpr distinct
  obtain ⟨_, rest⟩ := levels_remaining apart _ [] (remaining_pendingOf ds).symm
  obtain ⟨p, member, rfl, referenced, _⟩ := leftover_of_reference reference
  rw [rest] at member
  obtain ⟨q, pending, rfl⟩ := List.mem_map.mp member
  obtain ⟨d, known, rfl⟩ := mem_pendingOf.mp (List.mem_filter.mp pending).1
  exact ⟨d, known, rfl, mem_distinctReferences.mp referenced⟩

/-- Where a walk comes back to is where its cycle starts. -/
theorem Sound.isCycle (sound : Sound ds) {walk path : List String} {current : String}
    (closed : Closes (levels (pendingOf ds)).2 walk current path)
    (so_far : Walk (levels (pendingOf ds)).2 walk current) : IsCycle ds path := by
  induction closed with
  | @close walk current next start reference visited =>
    obtain ⟨within, here, _⟩ := List.idxOf?_eq_some_iff.mp visited
    have waits : Waits ds current next := waits_of_leftover reference sound.distinct
    have along : (walk ++ [next]).IsChain (Waits ds) := by
      refine List.isChain_append.mpr ⟨so_far.along.imp fun a b edge =>
        waits_of_leftover edge sound.distinct, .singleton _, fun a last b first => ?_⟩
      obtain rfl : current = a := Option.some.inj (so_far.last.symm.trans last)
      obtain rfl : next = b := Option.some.inj first
      exact waits
    have opened : walk.drop start = next :: walk.drop (start + 1) := by
      rw [List.drop_eq_getElem_cons within, here]
    refine ⟨?_, ?_, ?_, ?_⟩
    · rw [List.getLast?_concat, opened]
      rfl
    · rw [List.dropLast_concat]
      exact so_far.distinct.sublist (List.drop_sublist _ _)
    · -- A walk of one id would close on a discovery that references itself.
      by_contra short
      rw [List.length_append, List.length_drop, List.length_singleton] at short
      have single : start + 1 = walk.length := by omega
      have last : walk.getLast? = some next := by
        rw [List.getLast?_eq_getElem?, ← single, Nat.add_sub_cancel,
          List.getElem?_eq_getElem within, here]
      obtain rfl : current = next := Option.some.inj (so_far.last.symm.trans last)
      obtain ⟨d, known, rfl, self⟩ := waits
      exact sound.foreign d known self
    · rw [← List.drop_append_of_le_length (Nat.le_of_lt within)]
      exact along.drop start
  | step reference fresh _ ih =>
    exact ih (so_far.step reference (List.idxOf?_eq_none_iff.mp fresh))

/-- Where a cycle is all that is wrong with a list, the planner is refused for one, and each
discovery on it waits on itself: none that only waits on a cycle, or that a cycle only waits on,
is blamed. It is found by a walk from the least id left over, and no bound on the steps of that
walk takes part in how it ends. -/
theorem build_reports_cycle (sound : Sound ds) (cyclic : ∃ id, TransGen (Waits ds) id id) :
    ∃ path, build ds = .error (.cycle path) ∧ IsCycle ds path ∧
      (∀ id ∈ path, TransGen (Waits ds) id id) ∧
      ∃ first rest, (levels (pendingOf ds)).2 = first :: rest ∧
        Closes (first :: rest) [first.id] first.id path ∧
        ∀ steps, rest.length < steps → closeWalk (first :: rest) steps [first.id] first.id = path := by
  obtain ⟨_, refused⟩ := exists_cycle_iff.mpr ⟨sound, cyclic⟩
  rw [sound.build_eq] at refused ⊢
  cases placed : levels (pendingOf ds) with
  | mk waves left =>
    have trapped := sound.trapped
    have isCycle := @Sound.isCycle ds sound
    rw [placed] at refused trapped isCycle
    cases left with
    | nil => cases refused
    | cons first rest =>
      have start : Walk (first :: rest) [first.id] first.id := .start List.mem_cons_self
      have closes : ∀ steps, rest.length < steps → Closes (first :: rest) [first.id] first.id
          (closeWalk (first :: rest) steps [first.id] first.id) := by
        intro steps enough
        apply start.closes trapped
        rw [List.length_cons, List.length_singleton]
        omega
      have found := closes (first :: rest).length (Nat.lt_succ_self _)
      have cycle := isCycle found start
      exact ⟨_, rfl, cycle, fun id member => cycle.returns member, first, rest, rfl, found,
        fun steps enough => (closes steps enough).unique found⟩

end

/-- Three discoveries in a circle, one that the circle waits on and one that waits on it. -/
def tangle : List Dependency :=
  [⟨"root", []⟩, ⟨"x", ["z"]⟩, ⟨"y", ["x"]⟩, ⟨"z", ["y", "root"]⟩, ⟨"tail", ["z"]⟩]

/-- The walk starts at `tail`, which is on no cycle. -/
theorem tangle_reported :
    (Sound tangle ∧ TransGen (Waits tangle) "x" "x") ∧
      build tangle = .error (.cycle ["z", "y", "x", "z"]) ∧ IsCycle tangle ["z", "y", "x", "z"] := by
  have sound : Sound tangle := ⟨by decide, by decide, by decide⟩
  have around : TransGen (Waits tangle) "x" "x" :=
    ((TransGen.single ⟨⟨"x", ["z"]⟩, by decide, rfl, by decide⟩).tail
      ⟨⟨"z", ["y", "root"]⟩, by decide, rfl, by decide⟩).tail
      ⟨⟨"y", ["x"]⟩, by decide, rfl, by decide⟩
  have built : build tangle = .error (.cycle ["z", "y", "x", "z"]) := by cbv
  obtain ⟨path, refused, genuine, _⟩ := build_reports_cycle sound ⟨"x", around⟩
  obtain rfl : ["z", "y", "x", "z"] = path :=
    PlanError.cycle.inj (Except.error.inj (built.symm.trans refused))
  exact ⟨⟨sound, around⟩, built, genuine⟩

end CloudAudit.Plan
