import CloudAudit.Plan
import Mathlib.Data.List.Sort

set_option autoImplicit false

/- The waves of a plan as levels of the reference graph. The pending list the
planner keeps is determined by the ids already placed, so each wave has a closed
form: the ids not placed yet whose references all are. -/
namespace CloudAudit.Plan

/-- What is pending once the ids of `placed` are placed. -/
def remaining (all : List Pending) (placed : List String) : List Pending :=
  (all.filter (·.id ∉ placed)).map fun p =>
    { p with missing := p.references.countP (· ∉ placed) }

/-- Ids not placed whose references are all placed. -/
def readyAfter (all : List Pending) (placed : List String) : List String :=
  (all.filter fun p => p.id ∉ placed ∧ ∀ r ∈ p.references, r ∈ placed).map (·.id)

theorem mem_readyAfter {all : List Pending} {placed : List String} {id : String} :
    id ∈ readyAfter all placed ↔
      ∃ p ∈ all, p.id = id ∧ id ∉ placed ∧ ∀ r ∈ p.references, r ∈ placed := by
  simp only [readyAfter, List.mem_map, List.mem_filter, decide_eq_true_eq]
  constructor
  · rintro ⟨p, ⟨member, fresh, settled⟩, rfl⟩
    exact ⟨p, member, rfl, fresh, settled⟩
  · rintro ⟨p, member, rfl, fresh, settled⟩
    exact ⟨p, ⟨member, fresh, settled⟩, rfl⟩

theorem readyAfter_sublist (all : List Pending) (placed : List String) :
    List.Sublist (readyAfter all placed) (all.map (·.id)) :=
  List.filter_sublist.map _

theorem remaining_nil {all : List Pending}
    (untouched : ∀ p ∈ all, p.missing = p.references.length) : remaining all [] = all := by
  have same : ∀ p ∈ all,
      ({ p with missing := p.references.countP (· ∉ []) } : Pending) = p := by
    intro p member
    have counted := untouched p member
    cases p
    simp_all
  simpa [remaining] using List.map_congr_left same

theorem ready_remaining (all : List Pending) (placed : List String) :
    ready (remaining all placed) = readyAfter all placed := by
  simp only [ready, remaining, readyAfter, List.filter_map, List.map_map, List.filter_filter]
  congr 1
  apply List.filter_congr
  intro p _
  simp [List.countP_eq_zero, Bool.and_comm]

theorem countP_not_mem_append (references placed wave : List String)
    (apart : ∀ r ∈ wave, r ∉ placed) :
    references.countP (· ∉ placed ++ wave) + references.countP (· ∈ wave) =
      references.countP (· ∉ placed) := by
  induction references with
  | nil => rfl
  | cons r rest ih =>
    have fresh := apart r
    simp only [List.countP_cons, List.mem_append, decide_eq_true_eq] at ih ⊢
    by_cases inWave : r ∈ wave
    · have outside := fresh inWave
      simp only [inWave, outside, or_true, not_true_eq_false, not_false_eq_true, ↓reduceIte]
      omega
    · by_cases inPlaced : r ∈ placed <;>
        simp only [inWave, inPlaced, or_false, not_true_eq_false, not_false_eq_true,
          ↓reduceIte] <;> omega

/-- No counter is asked for more than it holds. -/
theorem hits_le_missing (all : List Pending) (placed : List String) :
    ∀ p ∈ remaining all placed, hits (ready (remaining all placed)) p ≤ p.missing := by
  intro p member
  rw [ready_remaining]
  obtain ⟨q, _, rfl⟩ := List.mem_map.mp member
  have split := countP_not_mem_append q.references placed (readyAfter all placed)
    (fun r inside => by
      obtain ⟨_, _, _, fresh, _⟩ := mem_readyAfter.mp inside
      exact fresh)
  simp only [hits]
  omega

theorem mem_readyAfter_of_mem {all : List Pending} {placed : List String}
    (distinct : (all.map (·.id)).Nodup) {p : Pending} (member : p ∈ all)
    (fresh : p.id ∉ placed) :
    p.id ∈ readyAfter all placed ↔ ∀ r ∈ p.references, r ∈ placed := by
  constructor
  · intro inside
    obtain ⟨q, known, same, _, settled⟩ := mem_readyAfter.mp inside
    rw [← List.inj_on_of_nodup_map distinct known member same]
    exact settled
  · intro settled
    exact mem_readyAfter.mpr ⟨p, member, rfl, fresh, settled⟩

theorem advance_remaining {all : List Pending} (distinct : (all.map (·.id)).Nodup)
    (placed : List String) :
    advance (readyAfter all placed) (remaining all placed) =
      remaining all (placed ++ readyAfter all placed) := by
  have apart : ∀ r ∈ readyAfter all placed, r ∉ placed := by
    intro r inside
    obtain ⟨_, _, _, fresh, _⟩ := mem_readyAfter.mp inside
    exact fresh
  have kept : all.filter (fun p => decide (p.references.countP (· ∉ placed) ≠ 0) &&
      decide (p.id ∉ placed)) = all.filter (·.id ∉ placed ++ readyAfter all placed) := by
    apply List.filter_congr
    intro p member
    by_cases fresh : p.id ∈ placed
    · simp [fresh]
    · have settled := mem_readyAfter_of_mem distinct member fresh
      simp [fresh, settled, List.countP_eq_zero]
  have counted : ∀ p ∈ all.filter (·.id ∉ placed ++ readyAfter all placed),
      settle (readyAfter all placed)
          { p with missing := p.references.countP (· ∉ placed) } =
        { p with missing := p.references.countP (· ∉ placed ++ readyAfter all placed) } := by
    intro p _
    have split := countP_not_mem_append p.references placed (readyAfter all placed) apart
    simp only [settle, hits, Pending.mk.injEq, true_and]
    omega
  calc
    _ = (all.filter (fun p => decide (p.references.countP (· ∉ placed) ≠ 0) &&
          decide (p.id ∉ placed))).map (fun p => settle (readyAfter all placed)
          { p with missing := p.references.countP (· ∉ placed) }) := by
      simp only [advance, remaining, List.filter_map, List.map_map, List.filter_filter]
      rfl
    _ = _ := by
      rw [kept]
      exact List.map_congr_left counted

/-- Waves that follow placed ids until no id is ready. -/
inductive Levels (all : List Pending) : List String → List (List String) → Prop
  | stop {placed : List String} (none_ready : readyAfter all placed = []) :
      Levels all placed []
  | wave {placed : List String} {rest : List (List String)}
      (some_ready : readyAfter all placed ≠ [])
      (next : Levels all (placed ++ readyAfter all placed) rest) :
      Levels all placed (readyAfter all placed :: rest)

/-- The planner's loop gives these waves and leaves what they do not place. -/
theorem levels_remaining {all : List Pending} (distinct : (all.map (·.id)).Nodup)
    (pending : List Pending) : ∀ placed, pending = remaining all placed →
    Levels all placed (levels pending).1 ∧
      (levels pending).2 = remaining all (placed ++ (levels pending).1.flatten) := by
  induction size : pending.length using Nat.strongRecOn generalizing pending with
  | ind n ih =>
    intro placed same
    have here : ready pending = readyAfter all placed := by rw [same, ready_remaining]
    rw [levels]
    split
    · rename_i none_ready
      rw [here] at none_ready
      exact ⟨.stop none_ready, by simpa using same⟩
    · rename_i some_ready
      have shorter := length_advance_lt (ready pending) some_ready
      have after : advance (ready pending) pending =
          remaining all (placed ++ readyAfter all placed) := by
        rw [here, same]
        exact advance_remaining distinct placed
      obtain ⟨following, left⟩ := ih _ (by omega) _ rfl _ after
      rw [here] at some_ready following left ⊢
      refine ⟨.wave some_ready following, ?_⟩
      simpa only [List.flatten_cons, List.append_assoc] using left

theorem Levels.stuck {all : List Pending} {placed : List String} {waves : List (List String)}
    (built : Levels all placed waves) : readyAfter all (placed ++ waves.flatten) = [] := by
  induction built with
  | stop none_ready => simpa using none_ready
  | wave _ _ ih => simpa only [List.flatten_cons, List.append_assoc] using ih

theorem Levels.getElem? {all : List Pending} {placed : List String}
    {waves : List (List String)} (built : Levels all placed waves) :
    ∀ n wave, waves[n]? = some wave →
      wave = readyAfter all (placed ++ (waves.take n).flatten) ∧ wave ≠ [] := by
  induction built with
  | stop _ =>
    intro n wave present
    simp at present
  | wave some_ready _ ih =>
    intro n wave present
    cases n with
    | zero =>
      simp only [List.getElem?_cons_zero, Option.some.injEq] at present
      subst present
      exact ⟨by simp, some_ready⟩
    | succ n =>
      simp only [List.getElem?_cons_succ] at present
      simpa only [List.take_succ_cons, List.flatten_cons, List.append_assoc] using ih n wave present

end CloudAudit.Plan
