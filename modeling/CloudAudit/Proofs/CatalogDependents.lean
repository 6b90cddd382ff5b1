import CloudAudit.Proofs.CatalogPlan

set_option autoImplicit false

/- The dependents of an id are what waits on it, directly or through others. The
search keeps a frontier of ids to look at; what it found and no longer has in the
frontier is closed under waiting. -/
namespace CloudAudit.Catalog

open Relation

theorem mem_newDependents {c : Catalog} {found : List String} {current x : String} :
    x ∈ newDependents c.discoveries found current ↔ c.Waits x current ∧ x ∉ found := by
  simp only [newDependents, List.mem_map, List.mem_filter, Bool.and_eq_true, Bool.not_eq_true',
    List.contains_eq_mem, decide_eq_false_iff_not, waits_iff]
  constructor
  · rintro ⟨d, ⟨known, waits, fresh⟩, rfl⟩
    exact ⟨⟨d, known, rfl, waits⟩, fresh⟩
  · rintro ⟨⟨d, known, rfl, waits⟩, fresh⟩
    exact ⟨d, ⟨known, waits, fresh⟩, rfl⟩

/-- Discoveries whose ids were not found yet. -/
def unfound (ds : List Discovery) (found : List String) : List Discovery :=
  ds.filter fun d => !found.contains d.id

/-- What a step finds is no longer to be found. -/
theorem unfound_step (ds : List Discovery) (found : List String) (current : String) :
    (newDependents ds found current).length +
      (unfound ds (found ++ newDependents ds found current)).length ≤ (unfound ds found).length := by
  have parts := List.length_eq_length_filter_add (l := unfound ds found) (·.waitsOn current)
  have fresh : (unfound ds found).filter (·.waitsOn current) =
      ds.filter fun d => d.waitsOn current && !found.contains d.id := by
    simp only [unfound, List.filter_filter]
  have kept : (unfound ds (found ++ newDependents ds found current)).length ≤
      ((unfound ds found).filter fun d => !d.waitsOn current).length := by
    simp only [unfound, List.filter_filter, ← List.countP_eq_length_filter]
    apply List.countP_mono_left
    intro d known apart
    simp only [Bool.not_eq_true', List.contains_eq_mem, decide_eq_false_iff_not, List.mem_append,
      not_or] at apart
    simp only [Bool.and_eq_true, Bool.not_eq_true', List.contains_eq_mem, decide_eq_false_iff_not]
    refine ⟨?_, apart.1⟩
    cases waits : d.waitsOn current with
    | false => rfl
    | true =>
      refine absurd (List.mem_map_of_mem (List.mem_filter.mpr ⟨known, ?_⟩)) apart.2
      simpa [waits] using apart.1
  rw [fresh] at parts
  rw [newDependents, List.length_map]
  unfold newDependents at kept
  omega

/-- A search under way for the dependents of a root. -/
structure Search (c : Catalog) (root : String) (found frontier : List String) : Prop where
  sound : ∀ x ∈ found, TransGen c.Waits x root
  origin : ∀ x ∈ frontier, x = root ∨ x ∈ found
  closed : ∀ x, (x = root ∨ x ∈ found) → x ∉ frontier → ∀ y, c.Waits y x → y ∈ found

section

variable {c : Catalog} {root : String} {found frontier : List String}

theorem Search.start (c : Catalog) (root : String) : Search c root [] [root] where
  sound := by simp
  origin := by simp
  closed := by
    intro x known gone
    simp only [List.not_mem_nil, or_false] at known
    exact absurd (List.mem_singleton.mpr known) gone

theorem Search.step {current : String} (search : Search c root found (current :: frontier)) :
    Search c root (found ++ newDependents c.discoveries found current)
      ((newDependents c.discoveries found current).reverse ++ frontier) where
  sound := by
    intro x member
    rcases List.mem_append.mp member with old | fresh
    · exact search.sound x old
    · have waits := (mem_newDependents.mp fresh).1
      rcases search.origin current List.mem_cons_self with rfl | inside
      · exact .single waits
      · exact .head waits (search.sound current inside)
  origin := by
    intro x member
    rw [List.mem_append, List.mem_reverse] at member
    rcases member with fresh | old
    · exact .inr (List.mem_append_right _ fresh)
    · exact (search.origin x (List.mem_cons_of_mem _ old)).imp_right (List.mem_append_left _)
  closed := by
    intro x known gone y waits
    rw [List.mem_append, List.mem_reverse, not_or] at gone
    rw [List.mem_append, ← or_assoc] at known
    -- What was just found is in the frontier, so only older ids and `current` are left.
    have old : x = root ∨ x ∈ found := known.resolve_right gone.1
    by_cases here : x = current
    · subst here
      by_cases inside : y ∈ found
      · exact List.mem_append_left _ inside
      · exact List.mem_append_right _ (mem_newDependents.mpr ⟨waits, inside⟩)
    · have passed : x ∉ current :: frontier := by
        rw [List.mem_cons, not_or]
        exact ⟨here, gone.2⟩
      exact List.mem_append_left _ (search.closed x old passed y waits)

/-- With enough steps for what is in the frontier and what may still enter it, a
search ends with an empty frontier. -/
theorem Search.finish (steps : Nat) : ∀ {found frontier : List String},
    Search c root found frontier →
    frontier.length + (unfound c.discoveries found).length ≤ steps →
    Search c root (collectDependents c.discoveries steps found frontier) [] := by
  induction steps with
  | zero =>
    intro found frontier search enough
    have empty : frontier = [] := List.eq_nil_of_length_eq_zero (by omega)
    subst empty
    exact search
  | succ steps ih =>
    intro found frontier search enough
    cases frontier with
    | nil => exact search
    | cons current frontier =>
      have shrinks := unfound_step c.discoveries found current
      apply ih search.step
      simp only [List.length_append, List.length_reverse, List.length_cons] at enough ⊢
      omega

end

/-- A search that starts has enough steps: one for its root and one for each discovery. -/
theorem initial_steps (c : Catalog) (root : String) :
    [root].length + (unfound c.discoveries []).length ≤ c.discoveries.length + 1 := by
  have bound := List.length_filter_le (fun d => !([] : List String).contains d.id) c.discoveries
  simp only [unfound, List.length_singleton]
  omega

theorem mem_dependentsOf {c : Catalog} {root x : String} :
    x ∈ c.dependentsOf root ↔ TransGen c.Waits x root := by
  have search := (Search.start c root).finish (c.discoveries.length + 1) (initial_steps c root)
  refine ⟨search.sound x, fun walk => ?_⟩
  induction walk using TransGen.head_induction_on with
  | single waits => exact search.closed root (.inl rfl) List.not_mem_nil _ waits
  | head waits _ ih => exact search.closed _ (.inr ih) List.not_mem_nil _ waits

end CloudAudit.Catalog
