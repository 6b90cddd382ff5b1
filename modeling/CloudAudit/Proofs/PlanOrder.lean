import CloudAudit.Proofs.PlanBuild

set_option autoImplicit false

/- The order of a plan is by waves and then by ids. The order in which discoveries are
listed does not show in it: the planner sorts them by their ids before it places them, so
two lists of the same discoveries have the same waves, or are left with the same cycle. -/
namespace CloudAudit.Plan

open Relation (TransGen)

variable {ds es : List Dependency}

/-- Told apart and listed, so that only a cycle can be wrong with it. -/
structure Sound (ds : List Dependency) : Prop where
  distinct : (ds.map (·.id)).Nodup
  foreign : ∀ d ∈ ds, d.id ∉ d.references
  listed : ∀ d ∈ ds, ∀ r ∈ d.references, r ∈ ds.map (·.id)

theorem Sound.perm (sound : Sound ds) (perm : es.Perm ds) : Sound es where
  distinct := (perm.map (·.id)).nodup_iff.mpr sound.distinct
  foreign := fun d known => sound.foreign d (perm.mem_iff.mp known)
  listed := by
    intro d known r reference
    rw [(perm.map (·.id)).mem_iff]
    exact sound.listed d (perm.mem_iff.mp known) r reference

/-- What the levels of a list say of it. -/
def ofLevels : List (List String) × List Pending → Except PlanError Plan
  | (waves, []) => .ok ⟨waves⟩
  | (_, p :: left) => .error (.cycle (findCycle (p :: left)))

/-- Past the checks of ids and references, a plan is what the levels say. -/
theorem Sound.build_eq (sound : Sound ds) : build ds = ofLevels (levels (pendingOf ds)) := by
  have once : firstRepeat? [] (ds.map (·.id)) = none := by
    rw [firstRepeat?_eq_none]
    exact ⟨sound.distinct, fun _ _ => List.not_mem_nil⟩
  have checked : ds.findSome? (badReference? (ds.map (·.id))) = none := by
    rw [List.findSome?_eq_none_iff]
    intro d known
    rw [badReference?_eq_none]
    exact ⟨sound.foreign d known, sound.listed d known⟩
  simp only [build, once, checked]
  rcases levels (pendingOf ds) with ⟨waves, _ | ⟨p, left⟩⟩
  · rfl
  · rfl

/-- A cycle is reported only where nothing else is wrong. -/
theorem sound_of_cycle {path : List String} (built : build ds = .error (.cycle path)) :
    Sound ds := by
  unfold build at built
  cases once : firstRepeat? [] (ds.map (·.id)) with
  | some id =>
    simp only [once] at built
    cases built
  | none =>
    simp only [once] at built
    cases checked : ds.findSome? (badReference? (ds.map (·.id))) with
    | some e =>
      simp only [checked] at built
      obtain ⟨d, _, bad⟩ := List.exists_of_findSome?_eq_some checked
      obtain ⟨r, _, bad⟩ := List.exists_of_findSome?_eq_some bad
      cases built
      split at bad
      · cases bad
      · split at bad
        · cases bad
        · cases bad
    | none =>
      rw [List.findSome?_eq_none_iff] at checked
      have references := fun d known => (badReference?_eq_none _ d).mp (checked d known)
      exact ⟨((firstRepeat?_eq_none _ _).mp once).1, fun d known => (references d known).1,
        fun d known => (references d known).2⟩

/-- Sorted by ids that do not repeat, the same discoveries make the same list. -/
theorem pendingOf_perm (perm : es.Perm ds) (distinct : (ds.map (·.id)).Nodup) :
    pendingOf es = pendingOf ds := by
  have apart : (es.map (·.id)).Nodup := (perm.map (·.id)).nodup_iff.mpr distinct
  have ascending : ∀ {l : List Dependency}, (l.map (·.id)).Nodup →
      (pendingOf l).Pairwise fun p q => p.id < q.id :=
    fun once => List.pairwise_map.mp (pendingOf_ids_sorted once)
  have same : (pendingOf es).Perm (pendingOf ds) := by
    have sorted : ∀ l : List Dependency,
        (l.mergeSort fun a b => decide (a.id ≤ b.id)).Perm l := fun l => List.mergeSort_perm l _
    exact ((sorted es).trans (perm.trans (sorted ds).symm)).map untouched
  refine same.eq_of_pairwise (fun p q _ _ below above => ?_) (ascending apart) (ascending distinct)
  exact absurd below (lt_asymm above)

theorem Sound.build_perm (sound : Sound ds) (perm : es.Perm ds) : build es = build ds := by
  rw [sound.build_eq, (sound.perm perm).build_eq, pendingOf_perm perm sound.distinct]

theorem Sound.of_wellFormed (sound : WellFormed ds) : Sound ds :=
  ⟨sound.distinct, sound.foreign, sound.listed⟩

/-- A cycle is reported exactly where a cycle is all that is wrong. -/
theorem exists_cycle_iff :
    (∃ path, build ds = .error (.cycle path)) ↔ Sound ds ∧ ∃ id, TransGen (Waits ds) id id := by
  constructor
  · rintro ⟨path, built⟩
    have sound := sound_of_cycle built
    refine ⟨sound, ?_⟩
    by_contra! acyclic
    obtain ⟨plan, accepted⟩ :=
      build_of_wellFormed ⟨sound.distinct, sound.foreign, sound.listed, acyclic⟩
    rw [built] at accepted
    cases accepted
  · rintro ⟨sound, id, walk⟩
    rw [sound.build_eq]
    cases placed : levels (pendingOf ds) with
    | mk waves left =>
      cases left with
      | nil =>
        have built : build ds = .ok ⟨waves⟩ := by rw [sound.build_eq, placed, ofLevels]
        exact absurd walk ((wellFormed_of_build built).acyclic id)
      | cons p left => exact ⟨_, rfl⟩

/-- One id stands before another one: in an earlier wave, or with the smaller id. -/
def Before (p : Plan) (a b : String) : Prop :=
  p.waveOf a < p.waveOf b ∨ p.waveOf a = p.waveOf b ∧ a < b

theorem Before.asymm {p : Plan} {a b : String} (first : p.Before a b) : ¬p.Before b a := by
  rintro (later | ⟨same, above⟩)
  · rcases first with earlier | ⟨same, _⟩
    · omega
    · omega
  · rcases first with earlier | ⟨_, below⟩
    · omega
    · exact lt_asymm below above

theorem Levels.waveOf_of_mem {waves : List (List String)} (built : Levels (pendingOf ds) [] waves)
    {n : Nat} {wave : List String} (present : waves[n]? = some wave) {id : String}
    (inside : id ∈ wave) : waveOf ⟨waves⟩ id = n := by
  obtain ⟨within, same⟩ := List.getElem?_eq_some_iff.mp present
  obtain ⟨_, _, _, fresh, _⟩ := (built.mem_wave present).mp inside
  rw [mem_take_flatten (Nat.le_of_lt within)] at fresh
  have reached : id ∈ (waves.take (n + 1)).flatten :=
    List.mem_flatten.mpr ⟨wave, List.mem_take_iff_getElem.mpr ⟨n, by omega, same⟩, inside⟩
  rw [mem_take_flatten within] at reached
  simp only [waveOf]
  omega

theorem order_sorted {plan : Plan} (built : build ds = .ok plan) :
    plan.order.Pairwise plan.Before := by
  obtain ⟨distinct, waves, _⟩ := levels_of_build built
  rw [order, List.pairwise_flatten]
  constructor
  · intro wave member
    obtain ⟨n, present⟩ := List.mem_iff_getElem?.mp member
    refine (waves.wave_sorted distinct member).2.imp_of_mem fun first second below => ?_
    exact .inr ⟨(waves.waveOf_of_mem present first).trans (waves.waveOf_of_mem present second).symm,
      below⟩
  · rw [List.pairwise_iff_getElem]
    intro i j hi hj before a first b second
    have here : plan.waveOf a = i := waves.waveOf_of_mem (List.getElem?_eq_getElem hi) first
    have there : plan.waveOf b = j := waves.waveOf_of_mem (List.getElem?_eq_getElem hj) second
    left
    omega

end CloudAudit.Plan
