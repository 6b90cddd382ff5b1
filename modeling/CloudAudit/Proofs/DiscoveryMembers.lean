import CloudAudit.Proofs.DiscoveryProgress
import CloudAudit.Proofs.DiscoveryRuns
import CloudAudit.Proofs.DiscoveryTurns

set_option autoImplicit false

/- Members of waves in a run of a catalog. A member sees the results of the waves
before its own, and ends skipped without a call, or emitted or failed. -/
namespace CloudAudit

namespace Catalog

/-- How a member ends on the results of earlier waves. -/
inductive Ended (p : Progress) (d : Discovery) : DiscoveryResult → List Exchange → Prop
  | blocked {reason : Reason} (known : p.blocked.lookup d.id = some reason) :
      Ended p d (.skip d.id reason) []
  | idle {reason : Reason} (free : p.blocked.lookup d.id = none)
      (refused : d.turns p.cache = .error reason) : Ended p d (.skip d.id reason) []
  | ran {turns : List Turn} {r : DiscoveryResult} {log : List Exchange}
      (free : p.blocked.lookup d.id = none) (given : d.turns p.cache = .ok turns)
      (own : r.discoveryId = d.id) (status : r.status = .emitted ∨ r.status = .failed) :
      Ended p d r log

variable {u : UnitContext} {p : Progress} {d : Discovery} {r : DiscoveryResult}
  {log : List Exchange}

theorem runOne_path (way : Program.Path (runOne u p d) log (some r)) : Ended p d r log := by
  unfold runOne at way
  cases known : p.blocked.lookup d.id with
  | some reason =>
    rw [known] at way
    cases way
    exact .blocked known
  | none =>
    rw [known] at way
    dsimp only [Discovery.run] at way
    cases turns : d.turns p.cache with
    | error reason =>
      rw [turns] at way
      cases way
      exact .idle known turns
    | ok given =>
      rw [turns] at way
      have runs := Discovery.runsTurns_of_path given way
      exact .ran known turns runs.own runs.ended

theorem Ended.settled (ended : Ended p d r log) :
    r.status = .emitted ∨ r.status = .failed ∨ r.status = .skipped := by
  cases ended with
  | blocked known => exact .inr (.inr rfl)
  | idle free refused => exact .inr (.inr rfl)
  | ran free given own status => exact status.imp_right .inl

/-- A discovery that was skipped has nothing and asked nothing. -/
theorem Ended.silent (ended : Ended p d r log) (skipped : r.status = .skipped) :
    log = [] ∧ r.items = [] ∧ r.failures = [] := by
  cases ended with
  | blocked known => exact ⟨rfl, rfl, rfl⟩
  | idle free refused => exact ⟨rfl, rfl, rfl⟩
  | ran free given own status =>
    rw [skipped] at status
    rcases status with impossible | impossible
    · cases impossible
    · cases impossible

theorem Ended.own (ended : Ended p d r log) : r.discoveryId = d.id := by
  cases ended with
  | blocked known => rfl
  | idle free refused => rfl
  | ran free given own status => exact own

theorem members_ids {c : Catalog} (planned : c.Planned) {wave : List String}
    (listed : ∀ id ∈ wave, id ∈ c.plan.order) : (c.members wave).map (·.id) = wave := by
  induction wave with
  | nil => rfl
  | cons id rest ih =>
    obtain ⟨here, others⟩ := List.forall_mem_cons.mp listed
    obtain ⟨d, known, rfl⟩ := planned.mem_order.mp here
    have found := planned.discovery?_eq known
    rw [members, List.filterMap_cons_some found, List.map_cons]
    exact congrArg (d.id :: ·) (ih others)

theorem mem_members {c : Catalog} {wave : List String} (member : d ∈ c.members wave) :
    d ∈ c.discoveries ∧ d.id ∈ wave := by
  obtain ⟨id, inside, found⟩ := List.mem_filterMap.mp member
  obtain ⟨known, rfl⟩ := mem_of_discovery? found
  exact ⟨known, inside⟩

theorem MemberRun.Of.own {run : MemberRun} (here : MemberRun.Of u p d run) :
    run.result.discoveryId = d.id := (runOne_path here.way).own

/-- A run of a member of wave `n`, in a run that gave these results: it saw those
of the waves before. -/
structure MemberRun.Placed (u : UnitContext) (c : Catalog) (results : List DiscoveryResult)
    (n : Nat) (d : Discovery) (run : MemberRun) : Prop where
  known : d ∈ c.discoveries
  member : ∃ wave, c.plan.waves[n]? = some wave ∧ d.id ∈ wave
  earlier : ∃ before, before <+: results ∧
    before.map (·.discoveryId) = (c.plan.waves.take n).flatten ∧
    run.earlier = Progress.after c before
  way : Program.Path (runOne u run.earlier d) run.log (some run.result)

theorem own_ids {ds : List Discovery} {runs : List MemberRun}
    (here : List.Forall₂ (MemberRun.Of u p) ds runs) :
    runs.map (·.result.discoveryId) = ds.map (·.id) := by
  induction here with
  | nil => rfl
  | cons first _ ih => rw [List.map_cons, List.map_cons, first.own, ih]

/-- Each id of the waves has one run, placed in its own wave. -/
theorem Unfolds.placed {c : Catalog} (planned : c.Planned) {waves : List (List String)}
    {last : Progress} {runs : List MemberRun} (unfolds : Unfolds u c waves p runs last) :
    ∀ {passed : List (List String)} {before : List DiscoveryResult},
      c.plan.waves = passed ++ waves → before.map (·.discoveryId) = passed.flatten →
      p = Progress.after c before →
      last = Progress.after c (before ++ runs.map (·.result)) ∧
        runs.map (·.result.discoveryId) = waves.flatten ∧
        ∀ run ∈ runs, ∃ n d, run.Placed u c (before ++ runs.map (·.result)) n d := by
  induction unfolds with
  | done p =>
    intro passed before _ _ same
    refine ⟨by simpa using same, rfl, ?_⟩
    intro run member
    cases member
  | @wave wave rest p last runs more here next ih =>
    intro passed before split named same
    subst same
    have listed : ∀ id ∈ wave, id ∈ c.plan.order := by
      intro id member
      rw [Plan.order, split, List.flatten_append, List.flatten_cons]
      exact List.mem_append_right _ (List.mem_append_left _ member)
    have ids : runs.map (·.result.discoveryId) = wave :=
      (own_ids here).trans (members_ids planned listed)
    have present : c.plan.waves[passed.length]? = some wave := by simp [split]
    have taken : c.plan.waves.take passed.length = passed := by simp [split]
    have results : before ++ (runs ++ more).map (·.result) =
        before ++ runs.map (·.result) ++ more.map (·.result) := by
      rw [List.map_append, List.append_assoc]
    obtain ⟨ended, later, placed⟩ := @ih (passed ++ [wave]) (before ++ runs.map (·.result))
      (by simpa using split) (by simp [named, ← ids, Function.comp_def])
      (Progress.after_append c before _)
    rw [results]
    refine ⟨ended, by rw [List.map_append, ids, later, List.flatten_cons], ?_⟩
    intro run member
    rcases List.mem_append.mp member with inWave | inRest
    · obtain ⟨d, inside, own⟩ := exists_of_forall₂ here inWave
      obtain ⟨known, inside⟩ := mem_members inside
      refine ⟨passed.length, d, known, ⟨wave, present, inside⟩, ⟨before, ?_, ?_, own.earlier⟩, ?_⟩
      · rw [List.append_assoc]
        exact List.prefix_append before _
      · rw [named, taken]
      · rw [own.earlier]
        exact own.way
    · exact placed run inRest

/-- With a client that always comes back, a run of a catalog ends with the results
of its members, one for each id of the plan, and made their calls. -/
theorem Discovers.placed {σ : Type} {client : Client σ} (quiet : client.NeverCrashes)
    {c : Catalog} (planned : c.Planned) {parallelism : Nat} {s t : Session σ}
    {outcome : Option Cache} (run : Discovers client u c parallelism s outcome t) :
    ∃ runs : List MemberRun,
      outcome = some (Progress.after c (runs.map (·.result))).cache ∧
      runs.map (·.result.discoveryId) = c.plan.order ∧
      (∀ run ∈ runs, ∃ n d, run.Placed u c (runs.map (·.result)) n d) ∧
      (∃ last, Unfolds u c c.plan.waves {} runs last) ∧
      t.calls.Perm ((runs.flatMap (·.log)).map (·.1) ++ s.calls) ∧
      ∀ e ∈ runs.flatMap (·.log), client.Replies e := by
  obtain ⟨last, run, rfl⟩ := run
  obtain ⟨runs, last, rfl, unfolds, calls, known⟩ := run.unfolds quiet
  obtain ⟨ended, ids, placed⟩ :=
    @Unfolds.placed u {} c planned c.plan.waves last runs unfolds [] [] rfl rfl rfl
  subst ended
  exact ⟨runs, rfl, ids, placed, ⟨_, unfolds⟩, calls, known⟩

/-- Each discovery of a catalog was a member of its wave, and its result is kept. -/
theorem Discovers.memberRuns {σ : Type} {client : Client σ} (quiet : client.NeverCrashes)
    {c : Catalog} (planned : c.Planned) {parallelism : Nat} {s t : Session σ}
    {outcome : Option Cache} (run : Discovers client u c parallelism s outcome t) :
    ∃ results, outcome = some (Progress.after c results).cache ∧
      results.map (·.discoveryId) = c.plan.order ∧
      (∀ r ∈ results, r.status = .emitted ∨ r.status = .failed ∨ r.status = .skipped) ∧
      ∀ d ∈ c.discoveries, ∃ (n : Nat) (run : MemberRun), run.Placed u c results n d ∧
        (Progress.after c results).cache.get? d.id = some run.result := by
  obtain ⟨runs, rfl, ids, placed, _⟩ := run.placed quiet planned
  have ordered : (runs.map (·.result)).map (·.discoveryId) = c.plan.order := by
    rw [List.map_map]
    exact ids
  have distinct : ((runs.map (·.result)).map (·.discoveryId)).Nodup :=
    ordered ▸ planned.order_nodup
  refine ⟨_, rfl, ordered, fun r member => ?_, fun d known => ?_⟩
  · obtain ⟨run, inside, rfl⟩ := List.mem_map.mp member
    obtain ⟨n, d, place⟩ := placed run inside
    exact (runOne_path place.way).settled
  · have listed : d.id ∈ runs.map (·.result.discoveryId) := by
      rw [ids]
      exact planned.mem_order.mpr ⟨d, known, rfl⟩
    obtain ⟨run, inside, same⟩ := List.mem_map.mp listed
    obtain ⟨n, e, place⟩ := placed run inside
    obtain rfl : e = d := List.inj_on_of_nodup_map planned.distinct place.known known
      ((runOne_path place.way).own.symm.trans same)
    exact ⟨n, run, place, (Progress.get?_after_eq_some distinct).mpr
      ⟨List.mem_map_of_mem (f := (·.result)) inside, same⟩⟩

end Catalog

end CloudAudit
