import CloudAudit.Proofs.DiscoveryParallel

set_option autoImplicit false

/- What a catalog comes to when a function answers its calls: the results, the calls,
and what the members of each wave see of the waves before. -/
namespace CloudAudit.Catalog

/-- Runs of all discoveries, in the order of the plan. -/
def answeredMembers (u : UnitContext) (c : Catalog) (answer : VendorCall → Answer) :
    List MemberRun := answeredRuns u c answer c.plan.waves {}

/-- Results of all discoveries. -/
def answeredCache (u : UnitContext) (c : Catalog) (answer : VendorCall → Answer) : Cache :=
  (Progress.after c ((answeredMembers u c answer).map (·.result))).cache

/-- Calls of all discoveries. -/
def answeredCalls (u : UnitContext) (c : Catalog) (answer : VendorCall → Answer) :
    List VendorCall := ((answeredMembers u c answer).flatMap (·.log)).map (·.1)

variable {u : UnitContext} {c : Catalog} {answer : VendorCall → Answer}

/-- With a client that answers by the function, a run ends with these results and made
these calls, in some order. -/
theorem Discovers.answered {σ : Type} {client : Client σ} (fixed : client.AnswersBy answer)
    (planned : c.Planned) {parallelism : Nat} {s t : Session σ} {outcome : Option Cache}
    (run : Discovers client u c parallelism s outcome t) :
    outcome = some (answeredCache u c answer) ∧
      t.calls.Perm (answeredCalls u c answer ++ s.calls) := by
  obtain ⟨runs, rfl, _, _, ⟨_, unfolds⟩, calls, known⟩ := run.placed fixed.neverCrashes planned
  obtain rfl : runs = answeredMembers u c answer :=
    unfolds.eq_answeredRuns fun e member => fixed.replied (known e member)
  exact ⟨rfl, calls⟩

/-- What the members of wave `n` see of results that end as a cache: those of the waves
before theirs, and whether a failure among them blocks a member. -/
structure Seen (c : Catalog) (cache : Cache) (n : Nat) (earlier : Progress) : Prop where
  ids : earlier.cache.ids.Perm (c.plan.waves.take n).flatten
  kept : ∀ id ∈ (c.plan.waves.take n).flatten, ∃ r, earlier.cache.get? id = some r ∧
    cache.get? id = some r
  blocked : ∀ wave, c.plan.waves[n]? = some wave → ∀ d : Discovery, d.id ∈ wave →
    match earlier.blocked.lookup d.id with
    | some reason => ∃ e, c.FirstFailure cache d.id e ∧ reason = .upstreamFailed e
    | none => ¬∃ e, c.FailedUpstream cache d.id e

/-- The results of a wave are what its members come to on what they see. -/
theorem answered_seen (planned : c.Planned) (u : UnitContext) (answer : VendorCall → Answer)
    {n : Nat} {wave : List String} (present : c.plan.waves[n]? = some wave) :
    ∃ earlier, Seen c (answeredCache u c answer) n earlier ∧
      ∀ d ∈ c.discoveries, d.id ∈ wave →
        (answeredCache u c answer).get? d.id = some ((runOne u earlier d).eval answer) ∧
        ∀ call ∈ (runOne u earlier d).trace answer, call ∈ answeredCalls u c answer := by
  have fixed : (Client.ofFunction "" answer).AnswersBy answer := Client.ofFunction_answersBy "" answer
  obtain ⟨runs, _, ids, placed, ⟨_, unfolds⟩, _, known⟩ :=
    (discover_discovers (Client.ofFunction "" answer) u c 1 ⟨(), [], false⟩).placed
      fixed.neverCrashes planned
  have answered : ∀ e ∈ runs.flatMap (·.log), e.2 = some (answer e.1) :=
    fun e member => fixed.replied (known e member)
  obtain rfl : runs = answeredMembers u c answer := unfolds.eq_answeredRuns answered
  have ordered : ((answeredMembers u c answer).map (·.result)).map (·.discoveryId) =
      c.plan.order := by
    rw [List.map_map]
    exact ids
  have distinct : (((answeredMembers u c answer).map (·.result)).map (·.discoveryId)).Nodup :=
    ordered ▸ planned.order_nodup
  obtain ⟨before, part, named, ran⟩ := exists_earlier planned ids placed present
  refine ⟨Progress.after c before, ⟨?_, ?_, ?_⟩, ?_⟩
  · rw [← named]
    exact Progress.ids_after_perm (distinct.sublist (part.sublist.map (·.discoveryId)))
  · intro id member
    rw [← named] at member
    obtain ⟨r, inside, rfl⟩ := List.mem_map.mp member
    have final := (Progress.get?_after_eq_some (c := c) distinct).mpr ⟨part.subset inside, rfl⟩
    exact ⟨r, (Progress.get?_after_prefix distinct part member).trans final, final⟩
  · intro other here d member
    obtain rfl := Option.some.inj (present.symm.trans here)
    exact lookup_earlier planned ordered part named present member
  · intro d listed member
    obtain ⟨run, inside, own, here⟩ := ran d listed member
    have same := here.eq_answeredRun fun e exchanged =>
      answered e (List.mem_flatMap.mpr ⟨run, inside, exchanged⟩)
    refine ⟨?_, fun call made => ?_⟩
    · have final := (Progress.get?_after_eq_some (c := c) distinct).mpr
        ⟨List.mem_map_of_mem (f := (·.result)) inside, own⟩
      rw [same] at final
      exact final
    · refine List.mem_map.mpr ⟨(call, some (answer call)), ?_, rfl⟩
      refine List.mem_flatMap.mpr ⟨run, inside, ?_⟩
      rw [same]
      exact List.mem_map.mpr ⟨call, made, rfl⟩

end CloudAudit.Catalog
