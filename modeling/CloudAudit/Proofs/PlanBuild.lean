import CloudAudit.Proofs.PlanLevels
import Mathlib.Algebra.GroupWithZero.Nat
import Mathlib.Data.List.Permutation
import Mathlib.Data.String.Basic
import Mathlib.Logic.Relation
import Mathlib.Order.WellFoundedSet

set_option autoImplicit false

/- Which lists of discoveries have a plan, and where a plan puts each of them.
Every discovery stands in the wave after the last wave of its references. -/
namespace CloudAudit.Plan

open Relation (TransGen)

/-- In a list of discoveries, `a` waits directly on `b`. -/
def Waits (ds : List Dependency) (a b : String) : Prop :=
  ∃ d ∈ ds, d.id = a ∧ b ∈ d.references

/-- What the planner asks of a list of discoveries. -/
structure WellFormed (ds : List Dependency) : Prop where
  distinct : (ds.map (·.id)).Nodup
  foreign : ∀ d ∈ ds, d.id ∉ d.references
  listed : ∀ d ∈ ds, ∀ r ∈ d.references, r ∈ ds.map (·.id)
  acyclic : ∀ id, ¬ TransGen (Waits ds) id id

/-- The first wave with an id; the number of waves when none has it. -/
def waveOf (p : Plan) (id : String) : Nat := p.waves.findIdx (id ∈ ·)

theorem firstRepeat?_eq_none (seen ids : List String) :
    firstRepeat? seen ids = none ↔ ids.Nodup ∧ ∀ id ∈ ids, id ∉ seen := by
  induction ids generalizing seen with
  | nil => simp [firstRepeat?]
  | cons id rest ih =>
    by_cases repeated : id ∈ seen
    · simp [firstRepeat?, repeated]
    · simp only [firstRepeat?, repeated, ↓reduceIte, ih, List.nodup_cons, List.mem_cons,
        forall_eq_or_imp, not_false_eq_true, true_and, not_or]
      constructor
      · rintro ⟨distinct, apart⟩
        exact ⟨⟨fun inside => (apart id inside).1 rfl, distinct⟩, fun r member => (apart r member).2⟩
      · rintro ⟨⟨fresh, distinct⟩, apart⟩
        exact ⟨distinct, fun r member => ⟨fun same => fresh (same ▸ member), apart r member⟩⟩

theorem badReference?_eq_none (ids : List String) (d : Dependency) :
    badReference? ids d = none ↔ d.id ∉ d.references ∧ ∀ r ∈ d.references, r ∈ ids := by
  simp only [badReference?, List.findSome?_eq_none_iff]
  constructor
  · intro sound
    refine ⟨fun self => ?_, fun r member => ?_⟩
    · simpa using sound d.id self
    · have checked := sound r member
      split at checked
      · cases checked
      · by_contra missing
        simp [missing] at checked
  · rintro ⟨foreign, listed⟩ r member
    have other : r ≠ d.id := fun same => foreign (same ▸ member)
    simp [other, listed r member]

@[simp] theorem mem_distinctReferences {d : Dependency} {r : String} :
    r ∈ distinctReferences d ↔ r ∈ d.references := by
  simp [distinctReferences, List.mem_mergeSort]

/-- A discovery before the first wave. -/
def untouched (d : Dependency) : Pending :=
  ⟨d.id, distinctReferences d, (distinctReferences d).length⟩

theorem mem_pendingOf {ds : List Dependency} {p : Pending} :
    p ∈ pendingOf ds ↔ ∃ d ∈ ds, untouched d = p := by
  simp [pendingOf, untouched, List.mem_mergeSort]

theorem pendingOf_ids_perm (ds : List Dependency) :
    ((pendingOf ds).map (·.id)).Perm (ds.map (·.id)) := by
  simpa [pendingOf, Function.comp_def] using
    (List.mergeSort_perm ds (fun a b => decide (a.id ≤ b.id))).map (·.id)

theorem pendingOf_ids_sorted {ds : List Dependency} (distinct : (ds.map (·.id)).Nodup) :
    ((pendingOf ds).map (·.id)).Pairwise (· < ·) := by
  have ascending : ((pendingOf ds).map (·.id)).Pairwise (· ≤ ·) := by
    have sorted : (ds.mergeSort fun a b => decide (a.id ≤ b.id)).Pairwise
        fun a b => decide (a.id ≤ b.id) = true := by
      apply List.pairwise_mergeSort
      · intro a b c ab bc
        exact decide_eq_true (le_trans (of_decide_eq_true ab) (of_decide_eq_true bc))
      · intro a b
        simpa using le_total a.id b.id
    simpa [pendingOf, List.pairwise_map] using sorted
  have apart := (pendingOf_ids_perm ds).nodup_iff.mpr distinct
  exact (ascending.and apart).imp fun both => lt_of_le_of_ne both.1 both.2

theorem remaining_pendingOf (ds : List Dependency) :
    remaining (pendingOf ds) [] = pendingOf ds :=
  remaining_nil fun p member => by
    obtain ⟨d, _, rfl⟩ := mem_pendingOf.mp member
    rfl

theorem mem_take_flatten {waves : List (List String)} {id : String} {n : Nat}
    (within : n ≤ waves.length) :
    id ∈ (waves.take n).flatten ↔ waves.findIdx (id ∈ ·) < n := by
  have found : (waves.take n).findIdx (id ∈ ·) < (waves.take n).length ↔
      ∃ wave ∈ waves.take n, id ∈ wave := by
    rw [List.findIdx_lt_length]
    simp
  rw [List.mem_flatten, ← found, List.findIdx_take, List.length_take]
  omega

section

variable {ds : List Dependency} {waves : List (List String)}

theorem readyAfter_pendingOf {placed : List String} {id : String} :
    id ∈ readyAfter (pendingOf ds) placed ↔
      ∃ d ∈ ds, d.id = id ∧ id ∉ placed ∧ ∀ r ∈ d.references, r ∈ placed := by
  rw [mem_readyAfter]
  constructor
  · rintro ⟨_, member, same, fresh, settled⟩
    obtain ⟨d, listed, rfl⟩ := mem_pendingOf.mp member
    exact ⟨d, listed, same, fresh, fun r inside => settled r (mem_distinctReferences.mpr inside)⟩
  · rintro ⟨d, listed, same, fresh, settled⟩
    exact ⟨untouched d, mem_pendingOf.mpr ⟨d, listed, rfl⟩, same, fresh,
      fun r inside => settled r (mem_distinctReferences.mp inside)⟩

theorem Levels.mem_wave (built : Levels (pendingOf ds) [] waves) {n : Nat}
    {wave : List String} (present : waves[n]? = some wave) {id : String} :
    id ∈ wave ↔ ∃ d ∈ ds, d.id = id ∧ id ∉ (waves.take n).flatten ∧
      ∀ r ∈ d.references, r ∈ (waves.take n).flatten := by
  have closed := (built.getElem? n wave present).1
  rw [List.nil_append] at closed
  rw [closed, readyAfter_pendingOf]

theorem Levels.wave_sorted (built : Levels (pendingOf ds) [] waves)
    (distinct : (ds.map (·.id)).Nodup) {wave : List String} (member : wave ∈ waves) :
    wave ≠ [] ∧ wave.Pairwise (· < ·) := by
  obtain ⟨n, present⟩ := List.mem_iff_getElem?.mp member
  obtain ⟨closed, some_ready⟩ := built.getElem? n wave present
  refine ⟨some_ready, ?_⟩
  rw [closed]
  exact (pendingOf_ids_sorted distinct).sublist (readyAfter_sublist _ _)

/-- No id is placed twice. -/
theorem Levels.nodup (built : Levels (pendingOf ds) [] waves)
    (distinct : (ds.map (·.id)).Nodup) : waves.flatten.Nodup := by
  rw [List.nodup_flatten]
  refine ⟨fun wave member => ?_, List.pairwise_iff_getElem.mpr ?_⟩
  · exact (built.wave_sorted distinct member).2.imp ne_of_lt
  · intro i j hi hj before id first second
    obtain ⟨_, _, _, fresh, _⟩ := (built.mem_wave (List.getElem?_eq_getElem hj)).mp second
    exact fresh (List.mem_flatten.mpr
      ⟨waves[i], List.mem_take_iff_getElem.mpr ⟨i, by omega, rfl⟩, first⟩)

theorem Levels.listed (built : Levels (pendingOf ds) [] waves) {id : String}
    (placed : id ∈ waves.flatten) : id ∈ ds.map (·.id) := by
  obtain ⟨wave, member, inside⟩ := List.mem_flatten.mp placed
  obtain ⟨n, present⟩ := List.mem_iff_getElem?.mp member
  obtain ⟨d, known, same, _⟩ := (built.mem_wave present).mp inside
  exact List.mem_map.mpr ⟨d, known, same⟩

/-- A placed discovery stands in the wave its index names. -/
theorem mem_waveOf {id : String} (placed : id ∈ waves.flatten) :
    ∃ wave, waves[waveOf ⟨waves⟩ id]? = some wave ∧ id ∈ wave := by
  have within : waveOf ⟨waves⟩ id < waves.length :=
    (mem_take_flatten (Nat.le_refl _)).mp (by simpa using placed)
  have inside : decide (id ∈ waves[waveOf ⟨waves⟩ id]) = true :=
    List.findIdx_getElem (p := fun wave => decide (id ∈ wave)) (w := within)
  exact ⟨_, List.getElem?_eq_getElem within, of_decide_eq_true inside⟩

/-- What a placed discovery waits on is placed, and in an earlier wave. -/
theorem Levels.waveOf_lt (built : Levels (pendingOf ds) [] waves)
    (distinct : (ds.map (·.id)).Nodup) {d : Dependency} (known : d ∈ ds)
    (placed : d.id ∈ waves.flatten) {r : String} (reference : r ∈ d.references) :
    waveOf ⟨waves⟩ r < waveOf ⟨waves⟩ d.id := by
  obtain ⟨wave, present, inside⟩ := mem_waveOf placed
  obtain ⟨e, other, same, _, settled⟩ := (built.mem_wave present).mp inside
  obtain rfl := List.inj_on_of_nodup_map distinct other known same
  have within := (List.getElem?_eq_some_iff.mp present).1
  exact (mem_take_flatten (Nat.le_of_lt within)).mp (settled r reference)

/-- A discovery behind the first wave waits on one of the wave just before. -/
theorem Levels.exists_previous (built : Levels (pendingOf ds) [] waves) {d : Dependency}
    (known : d ∈ ds) (placed : d.id ∈ waves.flatten) (later : 0 < waveOf ⟨waves⟩ d.id) :
    ∃ r ∈ d.references, waveOf ⟨waves⟩ d.id ≤ waveOf ⟨waves⟩ r + 1 := by
  have within : waveOf ⟨waves⟩ d.id < waves.length :=
    (mem_take_flatten (Nat.le_refl _)).mp (by simpa using placed)
  have before : waveOf ⟨waves⟩ d.id - 1 < waves.length := by omega
  have fresh : d.id ∉ (waves.take (waveOf ⟨waves⟩ d.id - 1)).flatten := by
    rw [mem_take_flatten (Nat.le_of_lt before)]
    simp only [waveOf]
    omega
  by_contra! all_early
  -- Otherwise its references were all placed one wave earlier, and so was it.
  have early : d.id ∈ waves[waveOf ⟨waves⟩ d.id - 1] := by
    refine (built.mem_wave (List.getElem?_eq_getElem before)).mpr ⟨d, known, rfl, fresh, ?_⟩
    intro r reference
    rw [mem_take_flatten (Nat.le_of_lt before)]
    have bound := all_early r reference
    simp only [waveOf] at bound ⊢
    omega
  have reached : d.id ∈ (waves.take (waveOf ⟨waves⟩ d.id)).flatten :=
    List.mem_flatten.mpr ⟨_, List.mem_take_iff_getElem.mpr ⟨_, by omega, rfl⟩, early⟩
  rw [mem_take_flatten (Nat.le_of_lt within)] at reached
  exact Nat.lt_irrefl _ reached

/-- Wave of a discovery: the first one, or the one after the last of its references. -/
theorem Levels.waveOf_eq (built : Levels (pendingOf ds) [] waves)
    (distinct : (ds.map (·.id)).Nodup) {d : Dependency} (known : d ∈ ds)
    (placed : d.id ∈ waves.flatten) :
    waveOf ⟨waves⟩ d.id = match (d.references.map (waveOf ⟨waves⟩)).max? with
      | none => 0
      | some last => last + 1 := by
  cases latest : (d.references.map (waveOf ⟨waves⟩)).max? with
  | none =>
    have none_referenced : d.references = [] := by simpa using latest
    by_contra later
    obtain ⟨r, reference, _⟩ := built.exists_previous known placed (Nat.pos_of_ne_zero later)
    rw [none_referenced] at reference
    cases reference
  | some last =>
    obtain ⟨attained, greatest⟩ := List.max?_eq_some_iff.mp latest
    obtain ⟨r, reference, same⟩ := List.mem_map.mp attained
    have above := built.waveOf_lt distinct known placed reference
    obtain ⟨q, other, near⟩ := built.exists_previous known placed (by omega)
    have below := greatest _ (List.mem_map.mpr ⟨q, other, rfl⟩)
    simp only
    omega

/-- Waves grow along references, so no walk comes back. -/
theorem Levels.acyclic (built : Levels (pendingOf ds) [] waves)
    (distinct : (ds.map (·.id)).Nodup) (complete : ∀ d ∈ ds, d.id ∈ waves.flatten)
    (id : String) : ¬ TransGen (Waits ds) id id := by
  have descends : ∀ a b, TransGen (Waits ds) a b → waveOf ⟨waves⟩ b < waveOf ⟨waves⟩ a := by
    intro a b walk
    induction walk with
    | single edge =>
      obtain ⟨d, known, rfl, reference⟩ := edge
      exact built.waveOf_lt distinct known (complete d known) reference
    | tail _ edge ih =>
      obtain ⟨d, known, rfl, reference⟩ := edge
      exact Nat.lt_trans (built.waveOf_lt distinct known (complete d known) reference) ih
  intro walk
  exact Nat.lt_irrefl _ (descends id id walk)

/-- A well-formed list is placed as a whole: waiting is well-founded on finitely
many ids, and an id whose references are placed is ready. -/
theorem Levels.complete (built : Levels (pendingOf ds) [] waves) (sound : WellFormed ds) :
    ∀ d ∈ ds, d.id ∈ waves.flatten := by
  have strict : IsStrictOrder String (Function.swap (TransGen (Waits ds))) :=
    { irrefl := sound.acyclic, trans := fun _ _ _ first second => second.trans first }
  have founded := (List.finite_toSet (ds.map (·.id))).wellFoundedOn
    (r := Function.swap (TransGen (Waits ds)))
  intro d known
  have member : d.id ∈ {id | id ∈ ds.map (·.id)} := List.mem_map.mpr ⟨d, known, rfl⟩
  refine founded.induction member (P := (· ∈ waves.flatten)) ?_
  intro id listed earlier
  obtain ⟨e, other, rfl⟩ := List.mem_map.mp listed
  have settled : ∀ r ∈ e.references, r ∈ waves.flatten := by
    intro r reference
    exact earlier r (sound.listed e other r reference)
      (TransGen.single ⟨e, other, rfl, reference⟩)
  by_contra missing
  have ready : e.id ∈ readyAfter (pendingOf ds) ([] ++ waves.flatten) :=
    readyAfter_pendingOf.mpr ⟨e, other, rfl, missing, settled⟩
  rw [built.stuck] at ready
  cases ready

/-- Placed once each, the references of a discovery are counted down once each. -/
theorem hits_sum (distinct : waves.flatten.Nodup) (p : Pending) :
    (waves.map (hits · p)).sum = p.references.countP (· ∈ waves.flatten) := by
  induction waves with
  | nil => simp
  | cons wave rest ih =>
    rw [List.flatten_cons, List.nodup_append] at distinct
    have apart : ∀ r ∈ rest.flatten, r ∉ wave :=
      fun r later first => distinct.2.2 r first r later rfl
    have later := ih distinct.2.1
    have split := countP_not_mem_append p.references wave rest.flatten apart
    have outside := List.length_eq_countP_add_countP (l := p.references) (· ∈ wave)
    have inside := List.length_eq_countP_add_countP (l := p.references) (· ∈ wave ++ rest.flatten)
    rw [List.map_cons, List.sum_cons, List.flatten_cons, later]
    simp only [hits, decide_not, decide_eq_true_eq] at split outside inside ⊢
    omega

end

/-- Pending lists the planner's loop goes through. -/
inductive Visits (first : List Pending) : List Pending → Prop
  | start : Visits first first
  | advance {pending : List Pending} (before : Visits first pending)
      (some_ready : ready pending ≠ []) : Visits first (advance (ready pending) pending)

theorem Visits.remaining {all pending : List Pending} (distinct : (all.map (·.id)).Nodup)
    (untouched : remaining all [] = all) (visited : Visits all pending) :
    ∃ placed, pending = Plan.remaining all placed := by
  induction visited with
  | start => exact ⟨[], untouched.symm⟩
  | advance _ _ ih =>
    obtain ⟨placed, rfl⟩ := ih
    rw [ready_remaining]
    exact ⟨_, advance_remaining distinct placed⟩

theorem build_eq_ok {ds : List Dependency} {plan : Plan} :
    build ds = .ok plan ↔ (ds.map (·.id)).Nodup ∧
      (∀ d ∈ ds, d.id ∉ d.references ∧ ∀ r ∈ d.references, r ∈ ds.map (·.id)) ∧
      levels (pendingOf ds) = (plan.waves, []) := by
  have once := firstRepeat?_eq_none [] (ds.map (·.id))
  have sound : ds.findSome? (badReference? (ds.map (·.id))) = none ↔
      ∀ d ∈ ds, d.id ∉ d.references ∧ ∀ r ∈ d.references, r ∈ ds.map (·.id) := by
    simp only [List.findSome?_eq_none_iff, badReference?_eq_none]
  rw [← sound]
  simp only [List.not_mem_nil, not_false_eq_true, implies_true, and_true] at once
  rw [← once]
  simp only [build]
  cases firstRepeat? [] (ds.map (·.id)) with
  | some id => simp
  | none =>
    cases ds.findSome? (badReference? (ds.map (·.id))) with
    | some e => simp
    | none =>
      obtain ⟨waves, left⟩ := levels (pendingOf ds)
      cases plan
      cases left <;> simp

/-- The waves of an accepted list, and that they place all of it. -/
theorem levels_of_build {ds : List Dependency} {plan : Plan} (built : build ds = .ok plan) :
    (ds.map (·.id)).Nodup ∧ Levels (pendingOf ds) [] plan.waves ∧
      ∀ d ∈ ds, d.id ∈ plan.waves.flatten := by
  obtain ⟨distinct, _, found⟩ := build_eq_ok.mp built
  have apart := (pendingOf_ids_perm ds).nodup_iff.mpr distinct
  obtain ⟨waves, left⟩ := levels_remaining apart _ [] (remaining_pendingOf ds).symm
  rw [found] at waves left
  refine ⟨distinct, waves, fun d known => ?_⟩
  by_contra missing
  have leftover : untouched d ∈ (pendingOf ds).filter (·.id ∉ [] ++ plan.waves.flatten) :=
    List.mem_filter.mpr ⟨mem_pendingOf.mpr ⟨d, known, rfl⟩, by simpa [untouched] using missing⟩
  have none_left : (pendingOf ds).filter (·.id ∉ [] ++ plan.waves.flatten) = [] := by
    simpa [remaining] using left
  rw [none_left] at leftover
  cases leftover

theorem wellFormed_of_build {ds : List Dependency} {plan : Plan}
    (built : build ds = .ok plan) : WellFormed ds := by
  obtain ⟨distinct, waves, complete⟩ := levels_of_build built
  obtain ⟨_, sound, _⟩ := build_eq_ok.mp built
  exact ⟨distinct, fun d known => (sound d known).1, fun d known => (sound d known).2,
    waves.acyclic distinct complete⟩

theorem build_of_wellFormed {ds : List Dependency} (sound : WellFormed ds) :
    ∃ plan, build ds = .ok plan := by
  have apart := (pendingOf_ids_perm ds).nodup_iff.mpr sound.distinct
  obtain ⟨waves, left⟩ := levels_remaining apart _ [] (remaining_pendingOf ds).symm
  have complete := waves.complete sound
  have none_left : (levels (pendingOf ds)).2 = [] := by
    rw [left, remaining, List.map_eq_nil_iff, List.filter_eq_nil_iff]
    intro p member
    obtain ⟨d, known, rfl⟩ := mem_pendingOf.mp member
    simpa [untouched] using complete d known
  refine ⟨⟨(levels (pendingOf ds)).1⟩, build_eq_ok.mpr ⟨sound.distinct, fun d known => ?_, ?_⟩⟩
  · exact ⟨sound.foreign d known, sound.listed d known⟩
  · exact Prod.ext rfl none_left

theorem order_perm_of_build {ds : List Dependency} {plan : Plan}
    (built : build ds = .ok plan) : plan.order.Perm (ds.map (·.id)) := by
  obtain ⟨distinct, waves, complete⟩ := levels_of_build built
  refine (List.perm_ext_iff_of_nodup (waves.nodup distinct) distinct).mpr fun id => ?_
  constructor
  · exact waves.listed
  · intro listed
    obtain ⟨d, known, rfl⟩ := List.mem_map.mp listed
    exact complete d known

/-- The counters of the planner's loop never run below zero: neither in one
round, nor over all rounds together. -/
theorem counters_suffice {ds : List Dependency} (distinct : (ds.map (·.id)).Nodup) :
    (∀ pending, Visits (pendingOf ds) pending →
      ∀ p ∈ pending, hits (ready pending) p ≤ p.missing) ∧
    ∀ p ∈ pendingOf ds, ((levels (pendingOf ds)).1.map (hits · p)).sum ≤ p.missing := by
  have apart := (pendingOf_ids_perm ds).nodup_iff.mpr distinct
  constructor
  · intro pending visited p member
    obtain ⟨placed, rfl⟩ := visited.remaining apart (remaining_pendingOf ds)
    exact hits_le_missing (pendingOf ds) placed p member
  · intro p member
    obtain ⟨waves, _⟩ := levels_remaining apart _ [] (remaining_pendingOf ds).symm
    rw [hits_sum (waves.nodup distinct)]
    obtain ⟨d, _, rfl⟩ := mem_pendingOf.mp member
    exact List.countP_le_length

/-- A plan exists exactly for the well-formed lists. It has each id once, in
ascending waves, every discovery in the wave after the last of its references. -/
theorem build_places_by_level (ds : List Dependency) :
    ((∃ plan, build ds = .ok plan) ↔ WellFormed ds) ∧
    (∀ plan, build ds = .ok plan →
      plan.order = plan.waves.flatten ∧ plan.order.Perm (ds.map (·.id)) ∧ plan.order.Nodup ∧
      (∀ wave ∈ plan.waves, wave ≠ [] ∧ wave.Pairwise (· < ·)) ∧
      ∀ d ∈ ds,
        (∃ wave, plan.waves[plan.waveOf d.id]? = some wave ∧ d.id ∈ wave) ∧
        (plan.waveOf d.id = match (d.references.map plan.waveOf).max? with
          | none => 0
          | some last => last + 1) ∧
        ∀ r ∈ d.references, plan.waveOf r < plan.waveOf d.id) ∧
    ((ds.map (·.id)).Nodup →
      (∀ pending, Visits (pendingOf ds) pending →
        ∀ p ∈ pending, hits (ready pending) p ≤ p.missing) ∧
      ∀ p ∈ pendingOf ds, ((levels (pendingOf ds)).1.map (hits · p)).sum ≤ p.missing) := by
  refine ⟨⟨fun ⟨_, built⟩ => wellFormed_of_build built, build_of_wellFormed⟩, ?_, counters_suffice⟩
  intro plan built
  obtain ⟨distinct, waves, complete⟩ := levels_of_build built
  refine ⟨rfl, order_perm_of_build built, waves.nodup distinct,
    fun wave member => waves.wave_sorted distinct member, fun d known => ?_⟩
  have placed := complete d known
  exact ⟨mem_waveOf placed, waves.waveOf_eq distinct known placed,
    fun r reference => waves.waveOf_lt distinct known placed reference⟩

/-- One discovery names the same reference twice, and two references join. -/
def diamond : List Dependency := [⟨"d", ["b", "c", "b"]⟩, ⟨"c", ["a"]⟩, ⟨"b", ["a"]⟩, ⟨"a", []⟩]

theorem diamond_places_by_level :
    build diamond = .ok ⟨[["a"], ["b", "c"], ["d"]]⟩ ∧ WellFormed diamond ∧
      (∀ r ∈ ["b", "c", "b"], waveOf ⟨[["a"], ["b", "c"], ["d"]]⟩ r <
        waveOf ⟨[["a"], ["b", "c"], ["d"]]⟩ "d") ∧
      ∀ p ∈ pendingOf diamond, ((levels (pendingOf diamond)).1.map (hits · p)).sum ≤ p.missing := by
  have built : build diamond = .ok ⟨[["a"], ["b", "c"], ["d"]]⟩ := by cbv
  obtain ⟨accepts, places, counts⟩ := build_places_by_level diamond
  have last := (places _ built).2.2.2.2 ⟨"d", ["b", "c", "b"]⟩ (by decide)
  exact ⟨built, accepts.mp ⟨_, built⟩, last.2.2, (counts (by decide)).2⟩

end CloudAudit.Plan
