import CloudAudit.Discovery.Waves
import CloudAudit.Proofs.CatalogDependents

set_option autoImplicit false

/- What is known after a list of results: each result under its own id, and for
each id the first failure in the list that it waits on. -/
namespace CloudAudit

open Relation

namespace Cache

theorem get?_insert (cache : Cache) (id x : String) (r : DiscoveryResult) :
    (cache.insert id r).get? x = if id = x then some r else cache.get? x := by
  induction cache with
  | nil => rfl
  | cons entry rest ih =>
    obtain ⟨k, old⟩ := entry
    rw [insert]
    by_cases same : k = id
    · subst same
      simp only [↓reduceIte, get?]
      by_cases here : k = x
      · simp only [here, ↓reduceIte]
      · simp only [here, ↓reduceIte]
    · rw [if_neg same]
      by_cases before : id < k
      · rw [if_pos before, get?]
      · rw [if_neg before, get?, ih, get?]
        by_cases here : k = x
        · have other : id ≠ x := fun equal => same (here.trans equal.symm)
          rw [if_pos here, if_neg other, if_pos here]
        · rw [if_neg here, if_neg here]

theorem ids_insert_perm {cache : Cache} {id : String} (r : DiscoveryResult)
    (fresh : id ∉ cache.ids) : (cache.insert id r).ids.Perm (id :: cache.ids) := by
  induction cache with
  | nil => exact .refl _
  | cons entry rest ih =>
    obtain ⟨k, old⟩ := entry
    simp only [ids, List.map_cons, List.mem_cons, not_or] at fresh
    rw [insert, if_neg (Ne.symm fresh.1)]
    by_cases before : id < k
    · rw [if_pos before]
      exact .refl _
    · rw [if_neg before]
      exact ((ih fresh.2).cons k).trans (.swap id k _)

end Cache

namespace Blocked

theorem lookup_insertNew (b : Blocked) (id x : String) (reason : Reason) :
    (b.insertNew id reason).lookup x = (b.lookup x).or (if x = id then some reason else none) := by
  unfold insertNew
  cases known : b.lookup id with
  | some earlier =>
    simp only [Option.isSome_some, ↓reduceIte]
    by_cases same : x = id
    · rw [same, known, Option.some_or]
    · rw [if_neg same, Option.or_none]
  | none =>
    simp only [Option.isSome_none, Bool.false_eq_true, ↓reduceIte]
    rw [List.lookup_append]
    by_cases same : x = id
    · simp [same]
    · have other : (x == id) = false := by simpa using same
      simp [same, List.lookup_cons, other]

/-- The first reason for an id stays. -/
theorem lookup_foldl_insertNew (ids : List String) (b : Blocked) (x : String) (reason : Reason) :
    (ids.foldl (fun b id => b.insertNew id reason) b).lookup x =
      (b.lookup x).or (if x ∈ ids then some reason else none) := by
  induction ids generalizing b with
  | nil => simp
  | cons id rest ih =>
    rw [List.foldl_cons, ih, lookup_insertNew, Option.or_assoc]
    congr 1
    by_cases same : x = id
    · simp [same]
    · simp [same]

end Blocked

namespace Progress

/-- What is known after results, in order. -/
def after (c : Catalog) (results : List DiscoveryResult) : Progress := results.foldl (add c) {}

theorem after_append (c : Catalog) (first second : List DiscoveryResult) :
    second.foldl (add c) (after c first) = after c (first ++ second) :=
  List.foldl_append.symm

theorem after_concat (c : Catalog) (results : List DiscoveryResult) (r : DiscoveryResult) :
    after c (results ++ [r]) = add c (after c results) r := by
  rw [← after_append, List.foldl_cons, List.foldl_nil]

theorem ids_after_perm {c : Catalog} {results : List DiscoveryResult}
    (distinct : (results.map (·.discoveryId)).Nodup) :
    (after c results).cache.ids.Perm (results.map (·.discoveryId)) := by
  induction results using List.reverseRecOn with
  | nil => exact .refl _
  | append_singleton results r ih =>
    rw [List.map_append, List.nodup_append] at distinct
    obtain ⟨earlier, _, apart⟩ := distinct
    have fresh : r.discoveryId ∉ (after c results).cache.ids := by
      rw [(ih earlier).mem_iff]
      intro member
      exact apart _ member _ List.mem_cons_self rfl
    rw [after_concat, List.map_append]
    refine (Cache.ids_insert_perm r fresh).trans (((ih earlier).cons _).trans ?_)
    exact (List.perm_append_singleton _ _).symm

/-- An id has the result that names it. -/
theorem get?_after {c : Catalog} {results : List DiscoveryResult}
    (distinct : (results.map (·.discoveryId)).Nodup) (id : String) :
    (after c results).cache.get? id = results.find? (·.discoveryId = id) := by
  induction results using List.reverseRecOn with
  | nil => rfl
  | append_singleton results r ih =>
    rw [List.map_append, List.nodup_append] at distinct
    obtain ⟨earlier, _, apart⟩ := distinct
    rw [after_concat, List.find?_append, ← ih earlier]
    simp only [add, Cache.get?_insert]
    by_cases here : r.discoveryId = id
    · have absent : results.find? (·.discoveryId = id) = none := by
        rw [List.find?_eq_none]
        intro q member
        have other := apart _ (List.mem_map_of_mem member) _ List.mem_cons_self
        simpa [← here] using other
      rw [if_pos here, ih earlier, absent, Option.none_or]
      simp [here]
    · rw [if_neg here]
      simp [here]

theorem get?_after_eq_some {c : Catalog} {results : List DiscoveryResult}
    (distinct : (results.map (·.discoveryId)).Nodup) {id : String} {r : DiscoveryResult} :
    (after c results).cache.get? id = some r ↔ r ∈ results ∧ r.discoveryId = id := by
  rw [get?_after distinct]
  constructor
  · intro found
    exact ⟨List.mem_of_find?_eq_some found, by simpa using List.find?_some found⟩
  · rintro ⟨member, rfl⟩
    have present : (results.find? (·.discoveryId = r.discoveryId)).isSome :=
      List.find?_isSome.mpr ⟨r, member, by simp⟩
    obtain ⟨q, found⟩ := Option.isSome_iff_exists.mp present
    have same : q.discoveryId = r.discoveryId := by simpa using List.find?_some found
    have listed := List.mem_of_find?_eq_some found
    rw [found, List.inj_on_of_nodup_map distinct listed member same]

/-- Later results leave those of earlier ids alone. -/
theorem get?_after_prefix {c : Catalog} {before results : List DiscoveryResult}
    (distinct : (results.map (·.discoveryId)).Nodup) (part : before <+: results) {id : String}
    (member : id ∈ before.map (·.discoveryId)) :
    (after c before).cache.get? id = (after c results).cache.get? id := by
  obtain ⟨r, inside, rfl⟩ := List.mem_map.mp member
  have earlier : (before.map (·.discoveryId)).Nodup :=
    distinct.sublist (part.sublist.map (·.discoveryId))
  rw [(get?_after_eq_some earlier).mpr ⟨inside, rfl⟩,
    (get?_after_eq_some distinct).mpr ⟨part.subset inside, rfl⟩]

/-- An id is blocked by the first failure that it waits on. -/
theorem lookup_after (c : Catalog) (results : List DiscoveryResult) (id : String) :
    (after c results).blocked.lookup id =
      (results.find? fun r => r.status = .failed ∧ id ∈ c.dependentsOf r.discoveryId).map
        fun r => .upstreamFailed r.discoveryId := by
  induction results using List.reverseRecOn with
  | nil => rfl
  | append_singleton results r ih =>
    rw [after_concat, List.find?_append]
    simp only [add]
    by_cases failed : r.status = .failed
    · rw [if_pos failed, Blocked.lookup_foldl_insertNew, ih, Option.map_or]
      by_cases waits : id ∈ c.dependentsOf r.discoveryId
      · simp [failed, waits]
      · simp [waits]
    · rw [if_neg failed, ih]
      simp [failed]

end Progress

end CloudAudit
