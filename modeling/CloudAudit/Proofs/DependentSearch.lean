import CloudAudit.Proofs.CatalogUpstream

set_option autoImplicit false

/- The search for the dependents of an id, one discovery at a time and for as long as an
id is left to look at. Nothing bounds it but what there is to find. Where ids are told
apart, all that waits on an id is found by one look at it, so the bounded search makes
the same steps and its bound is never reached. -/
namespace CloudAudit.Catalog

open Relation

/-- The search looks at `current` and comes to a discovery. If that one waits on `current`
and was not found yet, it goes to the end of what was found and to the front of the
frontier. -/
def visit (current : String) (search : List String × List String) (d : Discovery) :
    List String × List String :=
  if d.waitsOn current && !search.1.contains d.id then (search.1 ++ [d.id], d.id :: search.2)
  else search

/-- From what was found and the frontier, the search comes to its end with what it has
found by then. A search that goes on for ever comes to nothing. -/
inductive Searches (ds : List Discovery) : List String × List String → List String → Prop
  | ended (found : List String) : Searches ds (found, []) found
  | look {found frontier last : List String} {current : String}
      (next : Searches ds (ds.foldl (visit current) (found, frontier)) last) :
      Searches ds (found, current :: frontier) last

section

variable {ds : List Discovery} {search : List String × List String} {last : List String}

theorem Searches.unique {other : List String} (searches : Searches ds search last)
    (again : Searches ds search other) : last = other := by
  induction searches with
  | ended found =>
    cases again
    rfl
  | look _ ih =>
    cases again with
    | look next => exact ih next

theorem visit_nodup (current : String) (d : Discovery) (once : search.1.Nodup) :
    (visit current search d).1.Nodup := by
  unfold visit
  split
  · next fresh =>
    simp only [Bool.and_eq_true, Bool.not_eq_true', List.contains_eq_mem,
      decide_eq_false_iff_not] at fresh
    exact List.nodup_append.mpr ⟨once, List.nodup_singleton _, fun a old b new same =>
      fresh.2 (List.mem_singleton.mp new ▸ same ▸ old)⟩
  · exact once

/-- Whatever the ids, nothing is found twice. -/
theorem Searches.nodup (searches : Searches ds search last) (once : search.1.Nodup) :
    last.Nodup := by
  induction searches with
  | ended found => exact once
  | @look found frontier last current _ ih =>
    apply ih
    refine List.foldlRecOn (motive := fun s => s.1.Nodup) ds (visit current) ?_
      fun _ kept d _ => visit_nodup current d kept
    exact once

end

theorem newDependents_cons (d : Discovery) (ds : List Discovery) (found : List String)
    (current : String) :
    newDependents (d :: ds) found current =
      if d.waitsOn current && !found.contains d.id then d.id :: newDependents ds found current
      else newDependents ds found current := by
  unfold newDependents
  rw [List.filter_cons]
  split <;> rfl

/-- An id that no discovery of the list has may be found or not. -/
theorem newDependents_append {ds : List Discovery} {id : String}
    (foreign : id ∉ ds.map (·.id)) (found : List String) (current : String) :
    newDependents ds (found ++ [id]) current = newDependents ds found current := by
  unfold newDependents
  congr 1
  apply List.filter_congr
  intro d known
  have other : d.id ≠ id := fun same => foreign (List.mem_map.mpr ⟨d, known, same⟩)
  simp [other]

/-- One look at an id finds all that waits on it. -/
theorem foldl_visit {ds : List Discovery} (distinct : (ds.map (·.id)).Nodup) (current : String)
    (found frontier : List String) :
    ds.foldl (visit current) (found, frontier) =
      (found ++ newDependents ds found current,
        (newDependents ds found current).reverse ++ frontier) := by
  induction ds generalizing found frontier with
  | nil => simp [newDependents]
  | cons d rest ih =>
    obtain ⟨foreign, distinct⟩ := List.nodup_cons.mp distinct
    rw [List.foldl_cons, newDependents_cons, visit]
    split
    · rw [ih distinct, newDependents_append foreign]
      simp only [List.append_assoc, List.singleton_append, List.reverse_cons]
    · exact ih distinct found frontier

/-- With enough steps for what is in the frontier and what may still enter it, the bounded
search comes to the end of the search. -/
theorem collectDependents_searches {ds : List Discovery} (distinct : (ds.map (·.id)).Nodup)
    (steps : Nat) : ∀ {found frontier : List String},
      frontier.length + (unfound ds found).length ≤ steps →
      Searches ds (found, frontier) (collectDependents ds steps found frontier) := by
  induction steps with
  | zero =>
    intro found frontier enough
    obtain rfl : frontier = [] := List.eq_nil_of_length_eq_zero (by omega)
    exact .ended found
  | succ steps ih =>
    intro found frontier enough
    cases frontier with
    | nil => exact .ended found
    | cons current frontier =>
      have shrinks := unfound_step ds found current
      refine .look ?_
      rw [foldl_visit distinct]
      apply ih
      simp only [List.length_append, List.length_reverse, List.length_cons] at enough ⊢
      omega

theorem dependentsOf_searches {c : Catalog} (planned : c.Planned) (id : String) :
    Searches c.discoveries ([], [id]) (c.dependentsOf id) :=
  collectDependents_searches planned.distinct _ (initial_steps c id)

/-- In a compiled catalog the search for the dependents of an id ends. It finds the
discoveries that wait on the id, directly or through others, each of them once. The id
itself is not among them, and nothing waits on an id that is not in the catalog. -/
theorem dependents_found_once {doc : Document} {c : Catalog} (compiled : doc.compile = .ok c)
    (id : String) :
    (∀ last, Searches c.discoveries ([], [id]) last ↔ last = c.dependentsOf id) ∧
    (∀ x, x ∈ c.dependentsOf id ↔ ∃ d ∈ c.discoveries, d.id = x ∧ TransGen c.Waits d.id id) ∧
    (c.dependentsOf id).Nodup ∧
    id ∉ c.dependentsOf id ∧
    ((∀ d ∈ c.discoveries, d.id ≠ id) → c.dependentsOf id = []) := by
  have planned := planned_of_compile compiled
  have searches := dependentsOf_searches planned id
  refine ⟨fun last => ⟨fun other => other.unique searches, fun same => same ▸ searches⟩, ?_,
    searches.nodup List.nodup_nil, ?_, ?_⟩
  · intro x
    rw [mem_dependentsOf]
    constructor
    · intro walk
      obtain ⟨_, waits, _⟩ := TransGen.head'_iff.mp walk
      obtain ⟨d, known, rfl, _⟩ := waits_iff.mp waits
      exact ⟨d, known, rfl, walk⟩
    · rintro ⟨d, _, rfl, walk⟩
      exact walk
  · rw [mem_dependentsOf]
    exact (Plan.wellFormed_of_build planned).acyclic id
  · intro unknown
    rw [List.eq_nil_iff_forall_not_mem]
    intro x member
    obtain ⟨_, _, waits⟩ := TransGen.tail'_iff.mp (mem_dependentsOf.mp member)
    obtain ⟨e, known, same⟩ := exists_waited planned waits
    exact unknown e known same

/-- Routes lead over gateways and subnets, and both are in networks; routes name the
gateways twice. -/
def networkDocument : Document :=
  { provider := "north", service := "network",
    discovery := [listing "gateways" none ["networks"], listing "networks" none [],
      listing "routes" (some "gateways") ["subnets", "gateways"],
      listing "subnets" (some "networks") [], listing "zones" none []] }

def network : Catalog :=
  { provider := "north", service := "network", coverage := .regional, version := none,
    discoveries := [lister "gateways" none ["networks"], lister "networks" none [],
      lister "routes" (some "gateways") ["subnets", "gateways"],
      lister "subnets" (some "networks") [], lister "zones" none []]
    checks := []
    plan := ⟨[["networks", "zones"], ["gateways", "subnets"], ["routes"]]⟩ }

theorem network_compiled : networkDocument.compile = .ok network := by
  have planned : Plan.build (networkDocument.discovery.map Document.dependency) =
      .ok network.plan := by cbv
  unfold Document.compile
  rw [planned]
  rfl

/-- Routes are found once, whichever of the two is looked at first. -/
theorem routes_found_once :
    networkDocument.compile = .ok network ∧
    Searches network.discoveries ([], ["networks"]) ["gateways", "subnets", "routes"] ∧
    TransGen network.Waits "routes" "networks" ∧
    network.dependentsOf "peers" = [] := by
  have found : network.dependentsOf "networks" = ["gateways", "subnets", "routes"] := by decide
  obtain ⟨searches, members, _⟩ := dependents_found_once network_compiled "networks"
  obtain ⟨_, _, _, _, unknown⟩ := dependents_found_once network_compiled "peers"
  obtain ⟨_, _, same, walk⟩ := (members "routes").mp (by rw [found]; decide)
  exact ⟨network_compiled, (searches _).mpr found.symm, same ▸ walk, unknown (by decide)⟩

end CloudAudit.Catalog
