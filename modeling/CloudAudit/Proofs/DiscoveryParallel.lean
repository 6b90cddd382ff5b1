import CloudAudit.Proofs.DiscoveryOutcome

set_option autoImplicit false

/- Runs of a catalog whose calls a function answers. Such a run is settled before
it starts, so neither the number of workers nor the order of their calls shows in
the results or in the calls that are made. -/
namespace CloudAudit

namespace Catalog

/-- The run of a member whose calls a function answers. -/
def answeredRun (u : UnitContext) (answer : VendorCall → Answer) (p : Progress) (d : Discovery) :
    MemberRun :=
  ⟨p, (runOne u p d).eval answer,
    ((runOne u p d).trace answer).map fun call => (call, some (answer call))⟩

/-- The runs of all members, wave after wave. -/
def answeredRuns (u : UnitContext) (c : Catalog) (answer : VendorCall → Answer) :
    List (List String) → Progress → List MemberRun
  | [], _ => []
  | wave :: rest, p =>
    let runs := (c.members wave).map (answeredRun u answer p)
    runs ++ answeredRuns u c answer rest ((runs.map (·.result)).foldl (Progress.add c) p)

variable {u : UnitContext} {c : Catalog} {answer : VendorCall → Answer} {p : Progress}

theorem MemberRun.Of.eq_answeredRun {d : Discovery} {run : MemberRun}
    (own : MemberRun.Of u p d run) (fixed : ∀ e ∈ run.log, e.2 = some (answer e.1)) :
    run = answeredRun u answer p d := by
  obtain ⟨rfl, way⟩ := own
  obtain ⟨value, calls⟩ := way.determined fixed
  have exchanges : run.log = (run.log.map (·.1)).map fun call => (call, some (answer call)) := by
    rw [List.map_map]
    refine (List.map_id' run.log).symm.trans (List.map_congr_left fun e member => ?_)
    exact Prod.ext rfl (fixed e member)
  rw [calls] at exchanges
  show (⟨run.earlier, run.result, run.log⟩ : MemberRun) = _
  rw [exchanges, Option.some.inj value]
  rfl

theorem eq_map_answeredRun {ds : List Discovery} {runs : List MemberRun}
    (here : List.Forall₂ (MemberRun.Of u p) ds runs)
    (fixed : ∀ e ∈ runs.flatMap (·.log), e.2 = some (answer e.1)) :
    runs = ds.map (answeredRun u answer p) := by
  induction here with
  | nil => rfl
  | cons own _ ih =>
    simp only [List.flatMap_cons, List.forall_mem_append] at fixed
    rw [List.map_cons, own.eq_answeredRun fixed.1, ih fixed.2]

/-- However the calls of a wave were mixed, its members ran as if alone. -/
theorem Unfolds.eq_answeredRuns {waves : List (List String)} {runs : List MemberRun}
    {last : Progress} (unfolds : Unfolds u c waves p runs last)
    (fixed : ∀ e ∈ runs.flatMap (·.log), e.2 = some (answer e.1)) :
    runs = answeredRuns u c answer waves p := by
  induction unfolds with
  | done p => rfl
  | wave here next ih =>
    rw [List.flatMap_append, List.forall_mem_append] at fixed
    have wave := eq_map_answeredRun here fixed.1
    subst wave
    rw [answeredRuns, ih fixed.2]

/-- The results that the members of a wave see are the first ones, up to its place. -/
theorem exists_earlier (planned : c.Planned) {runs : List MemberRun}
    (ids : runs.map (·.result.discoveryId) = c.plan.order)
    (placed : ∀ run ∈ runs, ∃ n d, run.Placed u c (runs.map (·.result)) n d) {n : Nat}
    {wave : List String} (present : c.plan.waves[n]? = some wave) :
    ∃ before, before <+: runs.map (·.result) ∧
      before.map (·.discoveryId) = (c.plan.waves.take n).flatten ∧
      ∀ d ∈ c.discoveries, d.id ∈ wave → ∃ run ∈ runs, run.result.discoveryId = d.id ∧
        MemberRun.Of u (Progress.after c before) d run := by
  have split : c.plan.order = (c.plan.waves.take n).flatten ++ (c.plan.waves.drop n).flatten := by
    rw [← List.flatten_append, List.take_append_drop]
    rfl
  have named : ((runs.map (·.result)).take (c.plan.waves.take n).flatten.length).map
      (·.discoveryId) = (c.plan.waves.take n).flatten := by
    rw [List.map_take, List.map_map]
    refine (congrArg _ (ids.trans split)).trans ?_
    rw [List.take_left]
  refine ⟨_, List.take_prefix _ _, named, ?_⟩
  intro d known member
  have listed : d.id ∈ runs.map (·.result.discoveryId) := by
    rw [ids]
    exact planned.mem_order.mpr ⟨d, known, rfl⟩
  obtain ⟨run, inside, same⟩ := List.mem_map.mp listed
  obtain ⟨m, e, place⟩ := placed run inside
  obtain ⟨before, part, earlier, seen⟩ := place.earlier
  obtain ⟨other, here, inOther⟩ := place.member
  obtain rfl : e = d := List.inj_on_of_nodup_map planned.distinct place.known known
    ((runOne_path place.way).own.symm.trans same)
  obtain rfl := planned.wave_unique here present inOther member
  -- What the member saw is a prefix of the results too, and of the same length.
  have length : before.length = (c.plan.waves.take m).flatten.length := by
    rw [← earlier, List.length_map]
  rw [List.prefix_iff_eq_take.mp part, length] at seen
  exact ⟨run, inside, same, seen, seen ▸ place.way⟩

/-- With the same answers, runs with any two numbers of workers, the calls of each
wave in any order, have the same results and made the same calls. A member of a wave
ran on the results of earlier waves alone, the same for the whole wave. -/
theorem discovers_parallel {σ : Type} {client : Client σ} (fixed : client.AnswersBy answer)
    {doc : Document} (compiled : doc.compile = .ok c) {p q : Nat} {s₁ s₂ t₁ t₂ : Session σ}
    {one other : Option Cache} (first : Discovers client u c p s₁ one t₁)
    (second : Discovers client u c q s₂ other t₂) :
    ∃ cache made, one = some cache ∧ other = some cache ∧
      t₁.calls.Perm (made ++ s₁.calls) ∧ t₂.calls.Perm (made ++ s₂.calls) ∧
      ∀ n wave, c.plan.waves[n]? = some wave → ∃ earlier : Progress,
        earlier.cache.ids.Perm (c.plan.waves.take n).flatten ∧
        (∀ id ∈ (c.plan.waves.take n).flatten, earlier.cache.get? id = cache.get? id) ∧
        ∀ d ∈ c.discoveries, d.id ∈ wave →
          cache.get? d.id = some ((runOne u earlier d).eval answer) := by
  have planned := planned_of_compile compiled
  have quiet := fixed.neverCrashes
  obtain ⟨runs, rfl, ids, placed, ⟨_, unfolds⟩, calls, known⟩ := first.placed quiet planned
  obtain ⟨more, rfl, _, _, ⟨_, again⟩, others, replied⟩ := second.placed quiet planned
  have answered : ∀ e ∈ runs.flatMap (·.log), e.2 = some (answer e.1) :=
    fun e member => fixed.replied (known e member)
  obtain rfl : runs = more := (unfolds.eq_answeredRuns answered).trans
    (again.eq_answeredRuns fun e member => fixed.replied (replied e member)).symm
  have distinct : ((runs.map (·.result)).map (·.discoveryId)).Nodup := by
    rw [List.map_map]
    exact ids ▸ planned.order_nodup
  refine ⟨_, _, rfl, rfl, calls, others, ?_⟩
  intro n wave present
  obtain ⟨before, part, named, ran⟩ := exists_earlier planned ids placed present
  refine ⟨Progress.after c before, ?_, ?_, ?_⟩
  · rw [← named]
    exact Progress.ids_after_perm (distinct.sublist (part.sublist.map (·.discoveryId)))
  · intro id member
    rw [← named] at member
    exact Progress.get?_after_prefix distinct part member
  · intro d member inWave
    obtain ⟨run, inside, own, here⟩ := ran d member inWave
    rw [← own, (Progress.get?_after_eq_some distinct).mpr ⟨List.mem_map_of_mem inside, rfl⟩]
    have same := here.eq_answeredRun fun e exchanged =>
      answered e (List.mem_flatMap.mpr ⟨run, inside, exchanged⟩)
    rw [same, answeredRun]

/-- One worker and two. With two, the wave of hosts and keys is shared. -/
theorem estate_parallel :
    guarded.AnswersBy guardedAnswer ∧ estateDocument.compile = .ok estate ∧
    isShared 2 ["hosts", "keys"] = true ∧
    ∃ cache made, (estateRun 1).1 = some cache ∧ (estateRun 2).1 = some cache ∧
      (estateRun 1).2.calls.Perm made ∧ (estateRun 2).2.calls.Perm made := by
  obtain ⟨cache, made, one, two, calls, others, _⟩ :=
    discovers_parallel guarded_answersBy estate_compiled
      (discover_discovers guarded estateUnit estate 1 ⟨(), [], false⟩)
      (discover_discovers guarded estateUnit estate 2 ⟨(), [], false⟩)
  rw [List.append_nil] at calls others
  exact ⟨guarded_answersBy, estate_compiled, by decide, cache, made, one, two, calls, others⟩

end Catalog

end CloudAudit
