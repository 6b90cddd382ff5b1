import CloudAudit.Proofs.CatalogSafe

set_option autoImplicit false

/- Clients that crash. A wave that is shared among workers always comes back: a worker that is
lost takes the results of its own share with it and no others. Where a wave is one discovery, the
unit runs it without a worker, and is lost with it. -/
namespace CloudAudit

variable {σ α β : Type} {client : Client σ}

/-- A client can lead a program to a value, or to a crash. -/
def Client.Leads (client : Client σ) (p : Program α) (result : Option α) : Prop :=
  ∃ log, Program.Path p log result ∧ ∀ e ∈ log, client.Replies e

/-- A client that answers by a function whenever it comes back. -/
def Client.AnswersAs (client : Client σ) (answer : VendorCall → Answer) : Prop :=
  ∀ c state a, (client.reply c state).1.answer = some a → a = answer c

namespace Client.Leads

theorem run (client : Client σ) (p : Program α) (s : Session σ) :
    client.Leads p (p.run client s).1 := by
  obtain ⟨log, way, _, known⟩ := Program.run_path client p s
  exact ⟨log, way, known⟩

theorem ask {c : VendorCall} {next : Answer → Program α} {answer : Answer} {result : Option α}
    (replies : client.Replies (c, some answer)) (later : client.Leads (next answer) result) :
    client.Leads (.ask c next) result := by
  obtain ⟨log, way, known⟩ := later
  exact ⟨_, .ask way, List.forall_mem_cons.mpr ⟨replies, known⟩⟩

/-- A crash of a sequence is one of its first part, or of what follows. -/
theorem bind {p : Program α} {f : α → Program β} (crash : client.Leads (p.bind f) none) :
    client.Leads p none ∨ ∃ a, client.Leads (f a) none := by
  induction p with
  | done a => exact .inr ⟨a, crash⟩
  | ask c next ih =>
    obtain ⟨log, way, known⟩ := crash
    cases way with
    | crash => exact .inl ⟨_, .crash c next, known⟩
    | @ask _ _ answer _ _ rest =>
      obtain ⟨replies, known⟩ := List.forall_mem_cons.mp known
      exact (ih answer ⟨_, rest, known⟩).imp_left (.ask replies)

/-- A value is what the answers alone lead to. -/
theorem eval {p : Program α} {a : α} (leads : client.Leads p (some a))
    {answer : VendorCall → Answer} (fixed : client.AnswersAs answer) : a = p.eval answer := by
  induction p with
  | done b =>
    obtain ⟨log, way, _⟩ := leads
    cases way
    rfl
  | ask c next ih =>
    obtain ⟨log, way, known⟩ := leads
    cases way with
    | @ask _ _ given _ _ rest =>
      obtain ⟨⟨state, same⟩, known⟩ := List.forall_mem_cons.mp known
      rw [Program.eval, ← fixed c state given same]
      exact ih given ⟨_, rest, known⟩

end Client.Leads

namespace Catalog

variable {u : UnitContext} {c : Catalog} {p : Progress} {d : Discovery}
  {results more : List DiscoveryResult} {parallelism : Nat} {share wave : List String}

/-- The result of a discovery's own run. -/
structure OwnResult (client : Client σ) (u : UnitContext) (p : Progress) (d : Discovery)
    (r : DiscoveryResult) : Prop where
  id : r.discoveryId = d.id
  way : client.Leads (runOne u p d) (some r)
  /-- Crashes elsewhere do not show in it. -/
  same : ∀ answer, client.AnswersAs answer → r = (runOne u p d).eval answer

theorem OwnResult.of_leads {r : DiscoveryResult} (leads : client.Leads (runOne u p d) (some r)) :
    OwnResult client u p d r where
  id := by
    obtain ⟨log, way, _⟩ := leads
    exact (runOne_path way).own
  way := leads
  same := fun _ fixed => leads.eval fixed

theorem OwnResult.settled {r : DiscoveryResult} (own : OwnResult client u p d r) :
    r.status = .emitted ∨ r.status = .failed ∨ r.status = .skipped := by
  obtain ⟨log, way, _⟩ := own.way
  exact (runOne_path way).settled

/-- The result of a discovery that was lost with its worker. -/
def lostResult (id : String) : DiscoveryResult := .lost id "discovery worker panicked"

/-- A share comes back with the results of its members, or is lost where one of them crashes. -/
inductive ShareEnds (client : Client σ) (u : UnitContext) (c : Catalog) (p : Progress)
    (results : List DiscoveryResult) (share : List String) : Prop
  | kept (own : ∀ d ∈ c.members share, ∃ r ∈ results, OwnResult client u p d r)
  | lost (crashed : ∃ d ∈ c.members share, client.Leads (runOne u p d) none)
      (marked : ∀ id ∈ share, lostResult id ∈ results)

theorem ShareEnds.mono (ends : ShareEnds client u c p results share) (kept : results ⊆ more) :
    ShareEnds client u c p more share := by
  cases ends with
  | kept own =>
    refine .kept fun d member => ?_
    obtain ⟨r, inside, mine⟩ := own d member
    exact ⟨r, kept inside, mine⟩
  | lost crashed marked => exact .lost crashed fun id member => kept (marked id member)

theorem crash_of_runMembers (ids : List String)
    (crash : client.Leads (runMembers u c p ids) none) :
    ∃ d ∈ c.members ids, client.Leads (runOne u p d) none := by
  induction ids with
  | nil =>
    obtain ⟨log, way, _⟩ := crash
    cases way
  | cons id rest ih =>
    rw [runMembers] at crash
    cases found : c.discovery? id with
    | none =>
      rw [found] at crash
      rw [members, List.filterMap_cons_none found]
      exact ih crash
    | some d =>
      rw [found] at crash
      rw [members, List.filterMap_cons_some found]
      rcases crash.bind with here | ⟨r, later⟩
      · exact ⟨d, List.mem_cons_self, here⟩
      rcases later.bind with among | ⟨rs, log, way, _⟩
      · obtain ⟨e, member, crashed⟩ := ih among
        exact ⟨e, List.mem_cons_of_mem _ member, crashed⟩
      · cases way

theorem shareEnds_of_leads {result : Option (List DiscoveryResult)}
    (leads : client.Leads (runMembers u c p share) result) :
    ShareEnds client u c p (result.getD (lostShare share)) share := by
  cases result with
  | none =>
    exact .lost (crash_of_runMembers share leads) fun id member => List.mem_map_of_mem member
  | some results =>
    obtain ⟨log, way, known⟩ := leads
    obtain ⟨runs, each, rfl, rfl⟩ := runMembers_path share way
    refine .kept fun d member => ?_
    obtain ⟨run, inside, own⟩ := exists_of_forall₂ each.flip member
    refine ⟨run.result, List.mem_map_of_mem inside, .of_leads ⟨run.log, own.way, ?_⟩⟩
    exact fun e exchanged => known e (List.mem_flatMap.mpr ⟨run, inside, exchanged⟩)

theorem shareEnds_joinShares (shares : List (List String)) :
    ∀ {parts : List (Part (List DiscoveryResult))},
      List.Forall₂ Part.Of (shares.map fun share => some (runMembers u c p share)) parts →
      (∀ e ∈ parts.flatMap (·.log), client.Replies e) →
      ∀ share ∈ shares,
        ShareEnds client u c p (joinShares shares (parts.map (·.result))) share := by
  induction shares with
  | nil =>
    intro parts _ _ share member
    cases member
  | cons first rest ih =>
    intro parts matched known share member
    cases matched with
    | @cons _ part _ others here matched =>
      rw [List.flatMap_cons, List.forall_mem_append] at known
      have leads : client.Leads (runMembers u c p first) part.result := ⟨part.log, here, known.1⟩
      rw [List.map_cons, joinShares, List.zipWith_cons_cons, List.flatten_cons]
      rcases List.mem_cons.mp member with rfl | later
      · exact (shareEnds_of_leads leads).mono (List.subset_append_left _ _)
      · exact (ih matched known.2 share later).mono (List.subset_append_right _ _)

/-- What the workers of a wave are given; one that is not shared stays whole. -/
def portions (parallelism : Nat) (wave : List String) : List (List String) :=
  if isShared parallelism wave then shares parallelism wave else [wave]

theorem portions_flatten (parallelism : Nat) (wave : List String) :
    (portions parallelism wave).flatten = wave := by
  cases many : isShared parallelism wave with
  | true => rw [portions, if_pos many, shares_flatten many]
  | false => simp [portions, many]

theorem RunsWave.shareEnds {s t : Session σ}
    (run : RunsWave client u c parallelism p wave s (some results) t) :
    ∀ share ∈ portions parallelism wave, ShareEnds client u c p results share := by
  -- The results come as an index of the run, and cases need a variable there.
  generalize outcome : some results = ended at run
  cases run with
  | alone single =>
    intro share member
    rw [portions, single, if_neg Bool.false_ne_true, List.mem_singleton] at member
    obtain rfl := member
    have leads := Client.Leads.run client (runMembers u c p share) s
    rw [← outcome] at leads
    exact shareEnds_of_leads leads
  | shared many turns =>
    obtain ⟨parts, matched, rfl, _, known⟩ := turns.parts
    obtain rfl := Option.some.inj outcome
    rw [portions, if_pos many]
    exact shareEnds_joinShares _ matched known

/-- Only a wave of one discovery is lost, if there are several workers. -/
theorem RunsWave.crash {s t : Session σ} (several : 1 < parallelism)
    (run : RunsWave client u c parallelism p wave s none t) :
    ∃ d ∈ c.discoveries, wave = [d.id] ∧ client.Leads (runOne u p d) none := by
  generalize outcome : none = ended at run
  cases run with
  | shared => cases outcome
  | alone single =>
    have leads := Client.Leads.run client (runMembers u c p wave) s
    rw [← outcome] at leads
    obtain ⟨d, member, crashed⟩ := crash_of_runMembers wave leads
    obtain ⟨known, inside⟩ := mem_members member
    simp only [isShared, several, decide_true, Bool.true_and, decide_eq_false_iff_not] at single
    obtain ⟨id, rfl⟩ : ∃ id, wave = [id] := by
      have filled := List.length_pos_of_mem inside
      exact List.length_eq_one_iff.mp (by omega)
    obtain rfl := List.mem_singleton.mp inside
    exact ⟨d, known, rfl, crashed⟩

/-- What a wave comes to on the results of earlier waves. -/
structure WaveEnds (client : Client σ) (u : UnitContext) (c : Catalog) (parallelism : Nat)
    (p : Progress) (results : List DiscoveryResult) (wave : List String) : Prop where
  whole : (portions parallelism wave).flatten = wave
  share : ∀ share ∈ portions parallelism wave, ShareEnds client u c p results share
  /-- A discovery that cannot but crash is lost with its worker. -/
  lost : ∀ d ∈ c.members wave, (∀ r, ¬client.Leads (runOne u p d) (some r)) →
    lostResult d.id ∈ results
  /-- A share where no discovery crashes keeps the results of its own runs. -/
  kept : ∀ share ∈ portions parallelism wave,
    (∀ d ∈ c.members share, ¬client.Leads (runOne u p d) none) →
    ∀ d ∈ c.members share, ∃ r ∈ results, OwnResult client u p d r

theorem mem_members_of_id (planned : c.Planned) (known : d ∈ c.discoveries)
    (listed : d.id ∈ share) : d ∈ c.members share :=
  List.mem_filterMap.mpr ⟨d.id, listed, planned.discovery?_eq known⟩

theorem exists_portion (parallelism : Nat) {id : String} (member : id ∈ wave) :
    ∃ share ∈ portions parallelism wave, id ∈ share := by
  rw [← portions_flatten parallelism wave] at member
  exact List.mem_flatten.mp member

theorem WaveEnds.of_shares (planned : c.Planned)
    (ends : ∀ share ∈ portions parallelism wave, ShareEnds client u c p results share) :
    WaveEnds client u c parallelism p results wave where
  whole := portions_flatten parallelism wave
  share := ends
  lost := by
    intro d member crashes
    obtain ⟨known, inside⟩ := mem_members member
    obtain ⟨share, portion, listed⟩ := exists_portion parallelism inside
    cases ends share portion with
    | kept own =>
      obtain ⟨r, _, mine⟩ := own d (mem_members_of_id planned known listed)
      exact absurd mine.way (crashes r)
    | lost crashed marked => exact marked d.id listed
  kept := by
    intro share portion quiet
    cases ends share portion with
    | kept own => exact own
    | lost crashed marked =>
      obtain ⟨d, member, crashes⟩ := crashed
      exact absurd crashes (quiet d member)

theorem ShareEnds.settled (ends : ShareEnds client u c p results share) (planned : c.Planned)
    (known : d ∈ c.discoveries) (listed : d.id ∈ share) : ∃ r ∈ results, r.discoveryId = d.id ∧
      (r.status = .emitted ∨ r.status = .failed ∨ r.status = .skipped) := by
  cases ends with
  | kept own =>
    obtain ⟨r, inside, mine⟩ := own d (mem_members_of_id planned known listed)
    exact ⟨r, inside, mine.id, mine.settled⟩
  | lost crashed marked => exact ⟨_, marked d.id listed, rfl, .inr (.inl rfl)⟩

theorem WaveEnds.mono (ends : WaveEnds client u c parallelism p results wave) (planned : c.Planned)
    (kept : results ⊆ more) : WaveEnds client u c parallelism p more wave :=
  .of_shares planned fun share portion => (ends.share share portion).mono kept

/-- The first waves of a plan came back with these results, each on the results before it. -/
structure Contained (client : Client σ) (u : UnitContext) (c : Catalog) (parallelism n : Nat)
    (results : List DiscoveryResult) : Prop where
  ids : results.map (·.discoveryId) = (c.plan.waves.take n).flatten
  waves : ∀ m < n, ∀ wave, c.plan.waves[m]? = some wave → ∃ earlier, earlier <+: results ∧
    earlier.map (·.discoveryId) = (c.plan.waves.take m).flatten ∧
    WaveEnds client u c parallelism (Progress.after c earlier) results wave

theorem Contained.start : Contained client u c parallelism 0 [] where
  ids := rfl
  waves := fun m impossible => absurd impossible (Nat.not_lt_zero m)

theorem Contained.next {n : Nat} (contained : Contained client u c parallelism n results)
    (planned : c.Planned) (present : c.plan.waves[n]? = some wave)
    (ids : more.map (·.discoveryId) = wave)
    (ends : ∀ share ∈ portions parallelism wave,
      ShareEnds client u c (Progress.after c results) more share) :
    Contained client u c parallelism (n + 1) (results ++ more) where
  ids := by
    rw [List.map_append, contained.ids, ids, List.take_add_one, present, List.flatten_append]
    simp
  waves := by
    intro m before other there
    by_cases last : m = n
    · obtain rfl : wave = other := Option.some.inj (present.symm.trans (last ▸ there))
      refine ⟨results, List.prefix_append _ _, last ▸ contained.ids, ?_⟩
      exact .of_shares planned fun share portion =>
        (ends share portion).mono (List.subset_append_right _ _)
    · obtain ⟨earlier, part, named, passed⟩ := contained.waves m (by omega) other there
      exact ⟨earlier, part.trans (List.prefix_append _ _), named,
        passed.mono planned (List.subset_append_left _ _)⟩

/-- A crash that ends the unit: that of a discovery that is a wave of its own. -/
def CrashesAlone (client : Client σ) (u : UnitContext) (c : Catalog) (parallelism : Nat) : Prop :=
  ∃ n d results, Contained client u c parallelism n results ∧ d ∈ c.discoveries ∧
    c.plan.waves[n]? = some [d.id] ∧
    client.Leads (runOne u (Progress.after c results) d) none

theorem RunsWaves.contained (planned : c.Planned) (several : 1 < parallelism)
    {waves : List (List String)} {s t : Session σ} {outcome : Option Progress}
    (run : RunsWaves client u c parallelism waves p s outcome t) :
    ∀ {n : Nat} {before : List DiscoveryResult}, c.plan.waves.drop n = waves →
      p = Progress.after c before → Contained client u c parallelism n before →
      outcome.elim (CrashesAlone client u c parallelism) fun last => ∃ results,
        last = Progress.after c results ∧
        Contained client u c parallelism c.plan.waves.length results := by
  induction run with
  | done p s =>
    rintro n before none_left rfl contained
    have long := List.drop_eq_nil_iff.mp none_left
    refine ⟨before, rfl, ?_, fun m short => contained.waves m (Nat.lt_of_lt_of_le short long)⟩
    rw [contained.ids, List.take_of_length_le long, List.take_length]
  | crash here =>
    rintro n before next rfl contained
    obtain ⟨d, known, rfl, crash⟩ := here.crash several
    exact ⟨n, d, before, contained, known, by rw [← List.head?_drop, next]; rfl, crash⟩
  | @wave wave rest p s t v results outcome here _ ih =>
    rintro n before next rfl contained
    have present : c.plan.waves[n]? = some wave := by rw [← List.head?_drop, next]; rfl
    have later : c.plan.waves.drop (n + 1) = rest := by rw [← List.tail_drop, next]; rfl
    have listed : ∀ id ∈ wave, id ∈ c.plan.order := fun id member =>
      List.mem_flatten.mpr ⟨wave, List.mem_of_getElem? present, member⟩
    exact ih later (Progress.after_append c before results)
      (contained.next planned present (here.ids planned listed) here.shareEnds)

/-- Where all waves came back, every discovery has one result, and it is a final one. -/
theorem Contained.complete (planned : c.Planned)
    (contained : Contained client u c parallelism c.plan.waves.length results) :
    (∀ r, (Progress.after c results).cache.get? r.discoveryId = some r ↔ r ∈ results) ∧
    (Progress.after c results).cache.ids.Perm c.plan.order ∧
    ∀ d ∈ c.discoveries, ∃ r, (Progress.after c results).cache.get? d.id = some r ∧
      (r.status = .emitted ∨ r.status = .failed ∨ r.status = .skipped) := by
  have ids : results.map (·.discoveryId) = c.plan.order := by
    rw [contained.ids, List.take_length]
    rfl
  have distinct : (results.map (·.discoveryId)).Nodup := ids ▸ planned.order_nodup
  have found : ∀ r, (Progress.after c results).cache.get? r.discoveryId = some r ↔ r ∈ results :=
    fun r => (Progress.get?_after_eq_some distinct).trans (and_iff_left rfl)
  refine ⟨found, ids ▸ Progress.ids_after_perm distinct, fun d known => ?_⟩
  obtain ⟨n, wave, present, inside⟩ := planned.exists_wave known
  obtain ⟨share, portion, listed⟩ := exists_portion parallelism inside
  have before : n < c.plan.waves.length := (List.getElem?_eq_some_iff.mp present).1
  obtain ⟨_, _, _, ended⟩ := contained.waves n before wave present
  obtain ⟨r, member, own, settled⟩ := (ended.share share portion).settled planned known listed
  exact ⟨r, own ▸ (found r).mpr member, settled⟩

/-- With several workers a run comes back, whatever its client does, unless a discovery that is a
wave of its own crashes. Each wave then has the results that its shares keep, and failures for
the shares that are lost. -/
theorem crashes_contained {doc : Document} (compiled : doc.compile = .ok c)
    (several : 1 < parallelism) {s t : Session σ} {outcome : Option Cache}
    (run : Discovers client u c parallelism s outcome t) :
    (outcome = none → CrashesAlone client u c parallelism) ∧
    ∀ cache, outcome = some cache → ∃ results,
      Contained client u c parallelism c.plan.waves.length results ∧
      (∀ r, cache.get? r.discoveryId = some r ↔ r ∈ results) ∧ cache.ids.Perm c.plan.order ∧
      ∀ d ∈ c.discoveries, ∃ r, cache.get? d.id = some r ∧
        (r.status = .emitted ∨ r.status = .failed ∨ r.status = .skipped) := by
  have planned := planned_of_compile compiled
  obtain ⟨last, waves, rfl⟩ := run
  have ends := waves.contained planned several rfl (show {} = Progress.after c [] from rfl) .start
  constructor
  · intro ended
    obtain rfl := Option.map_eq_none_iff.mp ended
    exact ends
  · intro cache ended
    obtain ⟨last, rfl, rfl⟩ := Option.map_eq_some_iff.mp ended
    obtain ⟨results, rfl, contained⟩ := ends
    exact ⟨results, contained, contained.complete planned⟩

/-- A client that has one host and crashes when it is asked for disks. -/
def diskless : Client Unit :=
  ⟨"diskless", fun call _ =>
    (⟨if call.request.resource = "disks" then none
      else some (.ok (.array [.object [("name", .string "a")]])), false⟩, ())⟩

def disklessRun : Option Cache × Session Unit :=
  fleet.discover diskless estateUnit 2 ⟨(), [], false⟩

/-- A crash at the hosts is contained in the wave that they share with the audits and the keys. One
at the disks, which are a wave of their own, is not. -/
theorem fleet_crashes :
    fleetDocument.compile = .ok fleet ∧
    (∃ cache, hostlessRun.1 = some cache ∧
      cache.map (fun e => (e.1, e.2.status)) = hostlessEnds ∧
      ∃ results, Contained hostless estateUnit fleet 2 2 results ∧
        ∀ r, cache.get? r.discoveryId = some r ↔ r ∈ results) ∧
    disklessRun.1 = none ∧ CrashesAlone diskless estateUnit fleet 2 := by
  have ends : hostlessRun.1.map (List.map fun e => (e.1, e.2.status)) = some hostlessEnds := by
    decide +kernel
  obtain ⟨cache, ended, statuses⟩ := Option.map_eq_some_iff.mp ends
  have escapes : disklessRun.1 = none := by decide +kernel
  have contained := crashes_contained fleet_compiled (by decide)
    (discover_discovers hostless estateUnit fleet 2 ⟨(), [], false⟩)
  have lost := crashes_contained fleet_compiled (by decide)
    (discover_discovers diskless estateUnit fleet 2 ⟨(), [], false⟩)
  obtain ⟨results, waves, found, _⟩ := contained.2 cache ended
  exact ⟨fleet_compiled, ⟨cache, ended, statuses, results, waves, found⟩, escapes, lost.1 escapes⟩

/-- Two workers do not bring a run back that a wave of one discovery has ended. -/
theorem disks_crash_escapes : fleetDocument.compile = .ok fleet ∧ 1 < 2 ∧
    (fleet.discover diskless estateUnit 2 ⟨(), [], false⟩).1 = none :=
  ⟨fleet_compiled, by decide, by decide +kernel⟩

end Catalog

end CloudAudit
