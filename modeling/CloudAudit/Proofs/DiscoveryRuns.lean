import CloudAudit.Discovery.Waves
import CloudAudit.Proofs.ProgramTurns

set_option autoImplicit false

/- Runs of a catalog whose shares take turns in any order of their calls, and
what such a run does to each member of each wave. -/
namespace CloudAudit.Catalog

variable {σ : Type}

/-- Results of shares in order, a crash losing its own share. -/
def joinShares (shares : List (List String)) (results : List (Option (List DiscoveryResult))) :
    List DiscoveryResult :=
  (List.zipWith (fun share result => result.getD (lostShare share)) shares results).flatten

/-- A wave is run by its unit alone, or by shares that take turns. -/
inductive RunsWave (client : Client σ) (u : UnitContext) (c : Catalog) (parallelism : Nat)
    (p : Progress) (wave : List String) (s : Session σ) :
    Option (List DiscoveryResult) → Session σ → Prop
  | alone (single : isShared parallelism wave = false) :
      RunsWave client u c parallelism p wave s ((runMembers u c p wave).run client s).1
        ((runMembers u c p wave).run client s).2
  | shared (many : isShared parallelism wave = true)
      {results : List (Option (List DiscoveryResult))} {t : Session σ}
      (turns : Turns client ((shares parallelism wave).map fun share =>
        some (runMembers u c p share)) s results t) :
      RunsWave client u c parallelism p wave s
        (some (joinShares (shares parallelism wave) results)) t

/-- Waves in order; a crash of the unit ends it. -/
inductive RunsWaves (client : Client σ) (u : UnitContext) (c : Catalog) (parallelism : Nat) :
    List (List String) → Progress → Session σ → Option Progress → Session σ → Prop
  | done (p : Progress) (s : Session σ) : RunsWaves client u c parallelism [] p s (some p) s
  | crash {wave : List String} {rest : List (List String)} {p : Progress} {s t : Session σ}
      (here : RunsWave client u c parallelism p wave s none t) :
      RunsWaves client u c parallelism (wave :: rest) p s none t
  | wave {wave : List String} {rest : List (List String)} {p : Progress} {s t v : Session σ}
      {results : List DiscoveryResult} {outcome : Option Progress}
      (here : RunsWave client u c parallelism p wave s (some results) t)
      (next : RunsWaves client u c parallelism rest (results.foldl (Progress.add c) p) t
        outcome v) :
      RunsWaves client u c parallelism (wave :: rest) p s outcome v

/-- A run of all discoveries of a catalog, in some order of the calls of each wave. -/
def Discovers (client : Client σ) (u : UnitContext) (c : Catalog) (parallelism : Nat)
    (s : Session σ) (outcome : Option Cache) (t : Session σ) : Prop :=
  ∃ last, RunsWaves client u c parallelism c.plan.waves {} s last t ∧
    outcome = last.map (·.cache)

theorem runShares_eq (client : Client σ) (u : UnitContext) (c : Catalog) (p : Progress)
    (shares : List (List String)) (s : Session σ) :
    runShares client u c p shares s =
      (joinShares shares (Program.runAll client (shares.map (runMembers u c p)) s).1,
        (Program.runAll client (shares.map (runMembers u c p)) s).2) := by
  induction shares generalizing s with
  | nil => rfl
  | cons share rest ih => simp [runShares, Program.runAll, ih, joinShares]

theorem runWave_runsWave (client : Client σ) (u : UnitContext) (c : Catalog) (parallelism : Nat)
    (p : Progress) (wave : List String) (s : Session σ) :
    RunsWave client u c parallelism p wave s (runWave client u c parallelism p wave s).1
      (runWave client u c parallelism p wave s).2 := by
  cases split : isShared parallelism wave with
  | false =>
    simp only [runWave, split]
    exact .alone split
  | true =>
    simp only [runWave, split, ↓reduceIte, runShares_eq]
    refine .shared split ?_
    simpa [Function.comp_def] using
      Turns.runAll client ((shares parallelism wave).map (runMembers u c p)) [] s

theorem runWaves_runsWaves (client : Client σ) (u : UnitContext) (c : Catalog)
    (parallelism : Nat) (waves : List (List String)) :
    ∀ (p : Progress) (s : Session σ),
      RunsWaves client u c parallelism waves p s (runWaves client u c parallelism waves p s).1
        (runWaves client u c parallelism waves p s).2 := by
  induction waves with
  | nil =>
    intro p s
    exact .done p s
  | cons wave rest ih =>
    intro p s
    have here := runWave_runsWave client u c parallelism p wave s
    rw [runWaves]
    rcases ran : runWave client u c parallelism p wave s with ⟨results, t⟩
    rw [ran] at here
    cases results with
    | none => exact .crash here
    | some results => exact .wave here (ih _ t)

/-- Shares one after the other are one such run. -/
theorem discover_discovers (client : Client σ) (u : UnitContext) (c : Catalog)
    (parallelism : Nat) (s : Session σ) :
    Discovers client u c parallelism s (c.discover client u parallelism s).1
      (c.discover client u parallelism s).2 :=
  ⟨_, runWaves_runsWaves client u c parallelism c.plan.waves {} s, rfl⟩

theorem chunks_flatten {α : Type} {size : Nat} (positive : 0 < size) (fuel : Nat) :
    ∀ l : List α, l.length ≤ fuel → (chunks size fuel l).flatten = l := by
  induction fuel with
  | zero =>
    intro l short
    simp [chunks, List.eq_nil_of_length_eq_zero (Nat.le_zero.mp short)]
  | succ fuel ih =>
    intro l short
    cases l with
    | nil => rfl
    | cons a rest =>
      have shorter : ((a :: rest).drop size).length ≤ fuel := by
        simp only [List.length_drop, List.length_cons] at short ⊢
        omega
      rw [chunks, List.flatten_cons, ih _ shorter, List.take_append_drop]

/-- Shares cover their wave, in order. -/
theorem shares_flatten {parallelism : Nat} {wave : List String}
    (many : isShared parallelism wave = true) : (shares parallelism wave).flatten = wave := by
  simp only [isShared, Bool.and_eq_true, decide_eq_true_eq] at many
  apply chunks_flatten _ _ _ (Nat.le_refl _)
  apply Nat.div_pos <;> omega

/-- Discoveries of a wave. -/
def members (c : Catalog) (wave : List String) : List Discovery := wave.filterMap c.discovery?

/-- A discovery that was run with its wave. -/
structure MemberRun where
  /-- Results of the waves before. -/
  earlier : Progress
  result : DiscoveryResult
  log : List Exchange

/-- A member goes a way of its own program, on the results of earlier waves. -/
structure MemberRun.Of (u : UnitContext) (p : Progress) (d : Discovery) (run : MemberRun) :
    Prop where
  earlier : run.earlier = p
  way : Program.Path (runOne u p d) run.log (some run.result)

section

variable {u : UnitContext} {c : Catalog} {p : Progress}

theorem runMembers_path (ids : List String) :
    ∀ {log : List Exchange} {results : List DiscoveryResult},
      Program.Path (runMembers u c p ids) log (some results) →
      ∃ runs : List MemberRun, List.Forall₂ (MemberRun.Of u p) (c.members ids) runs ∧
        results = runs.map (·.result) ∧ log = runs.flatMap (·.log) := by
  induction ids with
  | nil =>
    intro log results way
    cases way
    exact ⟨[], .nil, rfl, rfl⟩
  | cons id rest ih =>
    intro log results way
    rw [runMembers] at way
    cases found : c.discovery? id with
    | none =>
      rw [found] at way
      simpa [members, found] using ih way
    | some d =>
      rw [found] at way
      obtain ⟨r, first, others, rfl, here, way⟩ := Program.Path.split way
      obtain ⟨rs, second, last, rfl, later, way⟩ := Program.Path.split way
      cases way
      obtain ⟨runs, matched, rfl, rfl⟩ := ih later
      refine ⟨⟨p, r, first⟩ :: runs, ?_, rfl, by simp⟩
      simpa [members, found] using ⟨⟨rfl, here⟩, matched⟩

theorem parts_members (shares : List (List String)) :
    ∀ {parts : List (Part (List DiscoveryResult))},
      List.Forall₂ Part.Of (shares.map fun share => some (runMembers u c p share)) parts →
      (∀ e ∈ parts.flatMap (·.log), e.2 ≠ none) →
      ∃ runs : List MemberRun, List.Forall₂ (MemberRun.Of u p) (c.members shares.flatten) runs ∧
        joinShares shares (parts.map (·.result)) = runs.map (·.result) ∧
        parts.flatMap (·.log) = runs.flatMap (·.log) := by
  induction shares with
  | nil =>
    intro parts matched _
    cases matched
    exact ⟨[], .nil, rfl, rfl⟩
  | cons share rest ih =>
    intro parts matched sound
    cases matched with
    | @cons _ part _ others here matched =>
      simp only [List.flatMap_cons, List.mem_append] at sound
      obtain ⟨more, later, joined, logs⟩ := ih matched fun e member => sound e (.inr member)
      obtain ⟨result, log⟩ := part
      have way : Program.Path (runMembers u c p share) log result := here
      cases result with
      | none =>
        obtain ⟨lost, member⟩ := way.exists_crash
        exact absurd rfl (sound _ (.inl member))
      | some results =>
        obtain ⟨runs, first, rfl, rfl⟩ := runMembers_path share way
        refine ⟨runs ++ more, ?_, ?_, ?_⟩
        · simpa [members] using List.rel_append first later
        · simp only [joinShares] at joined
          simp [joinShares, joined]
        · simp [logs]

end

/-- With a client that always comes back, a wave gives a result for each member,
and the calls made are those of the members. -/
theorem RunsWave.members {client : Client σ} (quiet : client.NeverCrashes) {u : UnitContext}
    {c : Catalog} {parallelism : Nat} {p : Progress} {wave : List String} {s t : Session σ}
    {outcome : Option (List DiscoveryResult)}
    (run : RunsWave client u c parallelism p wave s outcome t) :
    ∃ runs : List MemberRun, List.Forall₂ (MemberRun.Of u p) (c.members wave) runs ∧
      outcome = some (runs.map (·.result)) ∧
      t.calls.Perm ((runs.flatMap (·.log)).map (·.1) ++ s.calls) ∧
      ∀ e ∈ runs.flatMap (·.log), client.Replies e := by
  cases run with
  | alone single =>
    obtain ⟨log, way, calls, known⟩ := Program.run_path client (runMembers u c p wave) s
    cases outcome : ((runMembers u c p wave).run client s).1 with
    | none =>
      rw [outcome] at way
      obtain ⟨lost, member⟩ := way.exists_crash
      exact absurd rfl (quiet.answered (known _ member))
    | some results =>
      rw [outcome] at way
      obtain ⟨runs, matched, rfl, rfl⟩ := runMembers_path wave way
      refine ⟨runs, matched, rfl, ?_, known⟩
      rw [calls]
      exact (List.reverse_perm _).append_right _
  | shared many turns =>
    obtain ⟨parts, matched, rfl, calls, known⟩ := turns.parts
    obtain ⟨runs, each, joined, logs⟩ := parts_members (shares parallelism wave) matched
      fun e member => quiet.answered (known e member)
    rw [shares_flatten many] at each
    rw [logs] at calls known
    exact ⟨runs, each, congrArg some joined, calls, known⟩

/-- Waves in order, each member going a way of its own program. Clients, shares
and the order of calls are gone. -/
inductive Unfolds (u : UnitContext) (c : Catalog) :
    List (List String) → Progress → List MemberRun → Progress → Prop
  | done (p : Progress) : Unfolds u c [] p [] p
  | wave {wave : List String} {rest : List (List String)} {p last : Progress}
      {runs more : List MemberRun}
      (here : List.Forall₂ (MemberRun.Of u p) (c.members wave) runs)
      (next : Unfolds u c rest ((runs.map (·.result)).foldl (Progress.add c) p) more last) :
      Unfolds u c (wave :: rest) p (runs ++ more) last

theorem RunsWaves.unfolds {client : Client σ} (quiet : client.NeverCrashes) {u : UnitContext}
    {c : Catalog} {parallelism : Nat} {waves : List (List String)} {p : Progress}
    {s t : Session σ} {outcome : Option Progress}
    (run : RunsWaves client u c parallelism waves p s outcome t) :
    ∃ runs last, outcome = some last ∧ Unfolds u c waves p runs last ∧
      t.calls.Perm ((runs.flatMap (·.log)).map (·.1) ++ s.calls) ∧
      ∀ e ∈ runs.flatMap (·.log), client.Replies e := by
  induction run with
  | done p s => exact ⟨[], p, rfl, .done p, .refl _, by simp⟩
  | crash here =>
    obtain ⟨_, _, impossible, _⟩ := here.members quiet
    cases impossible
  | wave here _ ih =>
    obtain ⟨runs, matched, same, calls, known⟩ := here.members quiet
    obtain rfl := Option.some.inj same
    obtain ⟨more, last, rfl, unfolded, later, answered⟩ := ih
    refine ⟨runs ++ more, last, rfl, .wave matched unfolded, ?_, ?_⟩
    · refine later.trans ((calls.append_left _).trans ?_)
      rw [List.flatMap_append, List.map_append, ← List.append_assoc]
      exact List.perm_append_comm.append_right _
    · intro e member
      rw [List.flatMap_append, List.mem_append] at member
      exact member.elim (known e) (answered e)

end CloudAudit.Catalog
