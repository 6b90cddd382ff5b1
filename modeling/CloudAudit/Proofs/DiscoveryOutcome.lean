import CloudAudit.Proofs.DiscoveryMembers

set_option autoImplicit false

/- How each discovery of a catalog ends. Two tests decide it: what an earlier
failure blocked, and what a member finds in the results before its wave. Read on
the final results, both come to the failures upstream and the discovery iterated
over. -/
namespace CloudAudit

open Relation

/-- A discovery without iterations is one whose reference failed, or whose parent
has no items or no result to iterate over. -/
theorem Discovery.turns_error {d : Discovery} {cache : Cache} {reason : Reason}
    (sound : ∀ id ∈ d.dependsOn, ∀ r, cache.get? id = some r → r.status ≠ .failed)
    (refused : d.turns cache = .error reason) :
    ∃ parent, d.forEach = some parent ∧
      ((∃ q, cache.get? parent = some q ∧ q.status = .emitted ∧ q.items = [] ∧
          reason = .noParentItems parent) ∨
        (∀ q, cache.get? parent = some q → q.status ≠ .emitted) ∧
          reason = .parentUnavailable parent) := by
  have none_failed : (d.dependsOn.find? fun id => (cache.get? id).any (·.status = .failed)) =
      none := by
    rw [List.find?_eq_none]
    intro id listed failed
    obtain ⟨r, known, failed⟩ := (Option.any_eq_true _ _).mp failed
    exact sound id listed r known (by simpa using failed)
  simp only [turns, none_failed] at refused
  cases iterates : d.forEach with
  | none =>
    rw [iterates] at refused
    cases refused
  | some parent =>
    simp only [iterates] at refused
    refine ⟨parent, rfl, ?_⟩
    cases found : cache.get? parent with
    | none =>
      rw [found] at refused
      cases refused
      exact .inr ⟨by simp, rfl⟩
    | some q =>
      simp only [found, DiscoveryResult.isEmitted, decide_eq_true_eq] at refused
      split at refused
      · next emitted =>
        split at refused
        · next empty =>
          cases refused
          exact .inl ⟨q, rfl, emitted, List.isEmpty_iff.mp empty, rfl⟩
        · cases refused
      · next other =>
        cases refused
        exact .inr ⟨fun _ same => Option.some.inj same ▸ other, rfl⟩

/-- A discovery with iterations has items to iterate over, if it iterates at all. -/
theorem Discovery.turns_ok {d : Discovery} {cache : Cache} {turns : List Turn}
    (given : d.turns cache = .ok turns) {parent : String} (iterates : d.forEach = some parent) :
    ∃ q, cache.get? parent = some q ∧ q.status = .emitted ∧ q.items ≠ [] := by
  unfold Discovery.turns at given
  split at given
  · cases given
  simp only [iterates] at given
  cases found : cache.get? parent with
  | none =>
    rw [found] at given
    cases given
  | some q =>
    simp only [found, DiscoveryResult.isEmitted, decide_eq_true_eq] at given
    split at given
    · next emitted =>
      split at given
      · cases given
      · next filled => exact ⟨q, rfl, emitted, fun empty => filled (by simp [empty])⟩
    · cases given

namespace Catalog

/-- A discovery that an id waits on, directly or further up, and that failed. -/
def FailedUpstream (c : Catalog) (cache : Cache) (id e : String) : Prop :=
  TransGen c.Waits id e ∧ ∃ r, cache.get? e = some r ∧ r.status = .failed

/-- The failure upstream that comes first in the order of the plan. -/
def FirstFailure (c : Catalog) (cache : Cache) (id e : String) : Prop :=
  c.FailedUpstream cache id e ∧ ∃ before after, c.plan.order = before ++ e :: after ∧
    ∀ x ∈ before, ¬c.FailedUpstream cache id x

/-- What the result of a discovery is, given the results of the others. -/
structure Outcome (c : Catalog) (cache : Cache) (d : Discovery) (r : DiscoveryResult) : Prop where
  upstream : (∃ e, c.FailedUpstream cache d.id e) →
    ∃ e, c.FirstFailure cache d.id e ∧ r = .skip d.id (.upstreamFailed e)
  no_items : (¬∃ e, c.FailedUpstream cache d.id e) → ∀ parent q, d.forEach = some parent →
    cache.get? parent = some q → q.status = .emitted → q.items = [] →
    r = .skip d.id (.noParentItems parent)
  unavailable : (¬∃ e, c.FailedUpstream cache d.id e) → ∀ parent q, d.forEach = some parent →
    cache.get? parent = some q → q.status = .skipped →
    r = .skip d.id (.parentUnavailable parent)
  otherwise : (¬∃ e, c.FailedUpstream cache d.id e) →
    (∀ parent q, d.forEach = some parent → cache.get? parent = some q →
      ¬(q.status = .emitted ∧ q.items = []) ∧ q.status ≠ .skipped) →
    r.status = .emitted ∨ r.status = .failed

section

variable {c : Catalog} {cache : Cache} {d : Discovery} {parent : String} {q : DiscoveryResult}

theorem parent_unique (iterates : d.forEach = some parent) (known : cache.get? parent = some q)
    {other : String} {r : DiscoveryResult} (again : d.forEach = some other)
    (found : cache.get? other = some r) : other = parent ∧ r = q := by
  rw [iterates] at again
  obtain rfl := Option.some.inj again
  rw [known] at found
  exact ⟨rfl, (Option.some.inj found).symm⟩

theorem Outcome.of_firstFailure {e : String} (first : c.FirstFailure cache d.id e) :
    c.Outcome cache d (.skip d.id (.upstreamFailed e)) where
  upstream := fun _ => ⟨e, first, rfl⟩
  no_items := fun clear => absurd ⟨e, first.1⟩ clear
  unavailable := fun clear => absurd ⟨e, first.1⟩ clear
  otherwise := fun clear => absurd ⟨e, first.1⟩ clear

theorem Outcome.of_no_items (clear : ¬∃ e, c.FailedUpstream cache d.id e)
    (iterates : d.forEach = some parent) (known : cache.get? parent = some q)
    (emitted : q.status = .emitted) (empty : q.items = []) :
    c.Outcome cache d (.skip d.id (.noParentItems parent)) where
  upstream := fun failure => absurd failure clear
  no_items := by
    intro _ other r again found _ _
    obtain ⟨rfl, rfl⟩ := parent_unique iterates known again found
    rfl
  unavailable := by
    intro _ other r again found skipped
    obtain ⟨rfl, rfl⟩ := parent_unique iterates known again found
    rw [emitted] at skipped
    cases skipped
  otherwise := fun _ filled => absurd ⟨emitted, empty⟩ (filled parent q iterates known).1

theorem Outcome.of_unavailable (clear : ¬∃ e, c.FailedUpstream cache d.id e)
    (iterates : d.forEach = some parent) (known : cache.get? parent = some q)
    (skipped : q.status = .skipped) :
    c.Outcome cache d (.skip d.id (.parentUnavailable parent)) where
  upstream := fun failure => absurd failure clear
  no_items := by
    intro _ other r again found emitted _
    obtain ⟨rfl, rfl⟩ := parent_unique iterates known again found
    rw [skipped] at emitted
    cases emitted
  unavailable := by
    intro _ other r again found _
    obtain ⟨rfl, rfl⟩ := parent_unique iterates known again found
    rfl
  otherwise := fun _ filled => absurd skipped (filled parent q iterates known).2

theorem Outcome.of_run (clear : ¬∃ e, c.FailedUpstream cache d.id e)
    (given : ∀ parent, d.forEach = some parent →
      ∃ q, cache.get? parent = some q ∧ q.status = .emitted ∧ q.items ≠ [])
    {r : DiscoveryResult} (status : r.status = .emitted ∨ r.status = .failed) :
    c.Outcome cache d r where
  upstream := fun failure => absurd failure clear
  no_items := by
    intro _ parent q iterates known _ empty
    obtain ⟨r, found, _, filled⟩ := given parent iterates
    obtain ⟨_, rfl⟩ := parent_unique iterates known iterates found
    exact absurd empty filled
  unavailable := by
    intro _ parent q iterates known skipped
    obtain ⟨r, found, emitted, _⟩ := given parent iterates
    obtain ⟨_, rfl⟩ := parent_unique iterates known iterates found
    rw [skipped] at emitted
    cases emitted
  otherwise := fun _ _ => status

end

section

variable {c : Catalog} {results before : List DiscoveryResult} {n : Nat} {d : Discovery}

/-- An earlier failure blocks a member of a wave exactly when one is upstream of it,
and the first one is the reason. -/
theorem lookup_earlier (planned : c.Planned)
    (ordered : results.map (·.discoveryId) = c.plan.order) (part : before <+: results)
    (named : before.map (·.discoveryId) = (c.plan.waves.take n).flatten) {wave : List String}
    (present : c.plan.waves[n]? = some wave) (member : d.id ∈ wave) :
    match (Progress.after c before).blocked.lookup d.id with
    | some reason => ∃ e, c.FirstFailure (Progress.after c results).cache d.id e ∧
        reason = .upstreamFailed e
    | none => ¬∃ e, c.FailedUpstream (Progress.after c results).cache d.id e := by
  have distinct : (results.map (·.discoveryId)).Nodup := ordered ▸ planned.order_nodup
  have upstream : ∀ r ∈ results,
      c.FailedUpstream (Progress.after c results).cache d.id r.discoveryId ↔
        r.status = .failed ∧ d.id ∈ c.dependentsOf r.discoveryId := by
    intro r listed
    have own := (Progress.get?_after_eq_some (c := c) distinct).mpr ⟨listed, rfl⟩
    simp only [FailedUpstream, own, Option.some.injEq, exists_eq_left', mem_dependentsOf]
    exact and_comm
  rw [Progress.lookup_after]
  cases found : before.find? fun r => r.status = .failed ∧ d.id ∈ c.dependentsOf r.discoveryId with
  | some r =>
    obtain ⟨failed, first, rest, split, passed⟩ := List.find?_eq_some_iff_append.mp found
    subst split
    obtain ⟨later, rfl⟩ := part
    refine ⟨r.discoveryId, ⟨(upstream r (by simp)).mpr (by simpa using failed),
      first.map (·.discoveryId), (rest ++ later).map (·.discoveryId), ?_, ?_⟩, rfl⟩
    · rw [← ordered]
      simp
    · intro x earlier
      obtain ⟨q, inside, rfl⟩ := List.mem_map.mp earlier
      rw [upstream q (by simp [inside]), not_and_or]
      simpa using passed q inside
  | none =>
    rintro ⟨e, walk, r, known, failed⟩
    have earlier := planned.upstream_earlier present member walk
    rw [← named] at earlier
    rw [← Progress.get?_after_prefix distinct part earlier] at known
    obtain ⟨inside, rfl⟩ := (Progress.get?_after_eq_some
      (distinct.sublist (part.sublist.map (·.discoveryId)))).mp known
    have clear := List.find?_eq_none.mp found r inside
    exact clear (by simpa [mem_dependentsOf] using And.intro failed walk)

/-- A direct reference of a member has the same result before its wave and at the end. -/
theorem get?_reference (planned : c.Planned)
    (ordered : results.map (·.discoveryId) = c.plan.order) (part : before <+: results)
    (named : before.map (·.discoveryId) = (c.plan.waves.take n).flatten) {wave : List String}
    (present : c.plan.waves[n]? = some wave) (member : d.id ∈ wave) {id : String}
    (waits : c.Waits d.id id) :
    ∃ r, (Progress.after c before).cache.get? id = some r ∧
      (Progress.after c results).cache.get? id = some r := by
  have distinct : (results.map (·.discoveryId)).Nodup := ordered ▸ planned.order_nodup
  have earlier := planned.waits_earlier present member waits
  rw [← named] at earlier
  obtain ⟨r, inside, rfl⟩ := List.mem_map.mp earlier
  have final := (Progress.get?_after_eq_some (c := c) distinct).mpr ⟨part.subset inside, rfl⟩
  exact ⟨r, (Progress.get?_after_prefix distinct part earlier).trans final, final⟩

/-- The final results decide how a member ended on those of earlier waves. -/
theorem outcome_of_ended (planned : c.Planned)
    (ordered : results.map (·.discoveryId) = c.plan.order)
    (settled : ∀ r ∈ results, r.status = .emitted ∨ r.status = .failed ∨ r.status = .skipped)
    (part : before <+: results)
    (named : before.map (·.discoveryId) = (c.plan.waves.take n).flatten) {wave : List String}
    (present : c.plan.waves[n]? = some wave) (member : d.id ∈ wave) (known : d ∈ c.discoveries)
    {r : DiscoveryResult} {log : List Exchange} (ended : Ended (Progress.after c before) d r log) :
    c.Outcome (Progress.after c results).cache d r := by
  have decided := lookup_earlier planned ordered part named present member
  have reference : ∀ {id}, c.Waits d.id id → ∃ r,
      (Progress.after c before).cache.get? id = some r ∧
        (Progress.after c results).cache.get? id = some r :=
    fun waits => get?_reference planned ordered part named present member waits
  have iterated : ∀ {parent}, d.forEach = some parent → c.Waits d.id parent :=
    fun iterates => waits_iff.mpr ⟨d, known, rfl, by simp [Discovery.waitsOn, iterates]⟩
  cases ended with
  | blocked blocked =>
    rw [blocked] at decided
    obtain ⟨e, first, rfl⟩ := decided
    exact .of_firstFailure first
  | idle free refused =>
    rw [free] at decided
    -- A failed reference is a failure upstream, and would have blocked the member.
    have sound : ∀ id ∈ d.dependsOn, ∀ r,
        (Progress.after c before).cache.get? id = some r → r.status ≠ .failed := by
      intro id listed r earlier failed
      have waits : c.Waits d.id id :=
        waits_iff.mpr ⟨d, known, rfl, by simp [Discovery.waitsOn, listed]⟩
      obtain ⟨q, same, final⟩ := reference waits
      obtain rfl := Option.some.inj (same.symm.trans earlier)
      exact decided ⟨id, .single waits, q, final, failed⟩
    obtain ⟨parent, iterates, cause⟩ := Discovery.turns_error sound refused
    obtain ⟨q, earlier, final⟩ := reference (iterated iterates)
    rcases cause with ⟨other, same, emitted, empty, rfl⟩ | ⟨never, rfl⟩
    · obtain rfl := Option.some.inj (earlier.symm.trans same)
      exact .of_no_items decided iterates final emitted empty
    · have inside := ((Progress.get?_after_eq_some
        (ordered ▸ planned.order_nodup : (results.map (·.discoveryId)).Nodup)).mp final).1
      rcases settled q inside with emitted | failed | skipped
      · exact absurd emitted (never q earlier)
      · exact absurd ⟨parent, .single (iterated iterates), q, final, failed⟩ decided
      · exact .of_unavailable decided iterates final skipped
  | ran free given own status =>
    rw [free] at decided
    refine .of_run decided ?_ status
    intro parent iterates
    obtain ⟨q, earlier, emitted, filled⟩ := Discovery.turns_ok given iterates
    obtain ⟨other, same, final⟩ := reference (iterated iterates)
    obtain rfl := Option.some.inj (same.symm.trans earlier)
    exact ⟨other, final, emitted, filled⟩

end

/-- Every run of a compiled catalog, whatever its client answers and in whatever
order the calls of a wave are made, gives each discovery the outcome that its
upstream decides. A skipped discovery made no call. -/
theorem discovers_outcomes {σ : Type} {client : Client σ} (quiet : client.NeverCrashes)
    {doc : Document} {c : Catalog} (compiled : doc.compile = .ok c) {u : UnitContext}
    {parallelism : Nat} {s t : Session σ} {outcome : Option Cache}
    (run : Discovers client u c parallelism s outcome t) :
    ∃ cache, outcome = some cache ∧ cache.ids.Perm (c.discoveries.map (·.id)) ∧
      (∀ d ∈ c.discoveries, ∃ r, cache.get? d.id = some r ∧
        (r.status = .emitted ∨ r.status = .failed ∨ r.status = .skipped) ∧
        c.Outcome cache d r) ∧
      ∃ runs : List MemberRun,
        t.calls.Perm ((runs.flatMap (·.log)).map (·.1) ++ s.calls) ∧
        runs.map (·.result.discoveryId) = c.plan.order ∧
        ∀ run ∈ runs, cache.get? run.result.discoveryId = some run.result ∧
          (∃ d ∈ c.discoveries, d.id = run.result.discoveryId ∧
            Program.Path (runOne u run.earlier d) run.log (some run.result)) ∧
          (run.result.status = .skipped →
            run.log = [] ∧ run.result.items = [] ∧ run.result.failures = []) := by
  have planned := planned_of_compile compiled
  obtain ⟨runs, rfl, ids, placed, _, calls, _⟩ := run.placed quiet planned
  have ordered : (runs.map (·.result)).map (·.discoveryId) = c.plan.order := by
    rw [List.map_map]
    exact ids
  have distinct : ((runs.map (·.result)).map (·.discoveryId)).Nodup :=
    ordered ▸ planned.order_nodup
  have settled : ∀ r ∈ runs.map (·.result),
      r.status = .emitted ∨ r.status = .failed ∨ r.status = .skipped := by
    intro r member
    obtain ⟨run, inside, rfl⟩ := List.mem_map.mp member
    obtain ⟨n, d, place⟩ := placed run inside
    exact (runOne_path place.way).settled
  have kept : ∀ run ∈ runs, (Progress.after c (runs.map (·.result))).cache.get?
      run.result.discoveryId = some run.result := fun run inside =>
    (Progress.get?_after_eq_some distinct).mpr ⟨List.mem_map_of_mem inside, rfl⟩
  refine ⟨_, rfl, ?_, ?_, runs, calls, ids, ?_⟩
  · exact (Progress.ids_after_perm distinct).trans (ordered ▸ planned.order_perm)
  · intro d known
    have listed : d.id ∈ runs.map (·.result.discoveryId) := by
      rw [ids]
      exact planned.mem_order.mpr ⟨d, known, rfl⟩
    obtain ⟨run, inside, same⟩ := List.mem_map.mp listed
    obtain ⟨n, e, place⟩ := placed run inside
    obtain ⟨before, part, named, seen⟩ := place.earlier
    obtain ⟨wave, present, member⟩ := place.member
    have ended := runOne_path place.way
    obtain rfl : e = d :=
      List.inj_on_of_nodup_map planned.distinct place.known known (ended.own.symm.trans same)
    refine ⟨run.result, same ▸ kept run inside, settled _ (List.mem_map_of_mem inside), ?_⟩
    rw [seen] at ended
    exact outcome_of_ended planned ordered settled part named present member known ended
  · intro run inside
    obtain ⟨n, d, place⟩ := placed run inside
    have ended := runOne_path place.way
    exact ⟨kept run inside, ⟨d, place.known, ended.own.symm, place.way⟩, ended.silent⟩

/-- A discovery that lists the resources it is named for, as written. -/
def listing (id : String) (forEach : Option String) (dependsOn : List String) : DiscoveryEntry :=
  { id, calls := [{ action := "list_" ++ id }], forEach, dependsOn }

/-- Such a discovery, compiled. -/
def lister (id : String) (forEach : Option String) (dependsOn : List String) : Discovery :=
  { id, calls := [⟨.list id, [], "response"⟩], forEach, dependsOn, emit := none,
    onError := if forEach.isSome then .proceed else .fail, idField := none }

/-- Quotas wait on disks, which wait on hosts; grants wait on quotas and keys. -/
def estateDocument : Document :=
  { provider := "north", service := "compute",
    discovery := [listing "disks" (some "hosts") [], listing "grants" none ["quotas", "keys"],
      listing "hosts" none [], listing "keys" none [], listing "quotas" none ["disks"],
      listing "tags" (some "disks") []] }

def estate : Catalog :=
  { provider := "north", service := "compute", coverage := .regional, version := none,
    discoveries := [lister "disks" (some "hosts") [], lister "grants" none ["quotas", "keys"],
      lister "hosts" none [], lister "keys" none [], lister "quotas" none ["disks"],
      lister "tags" (some "disks") []]
    checks := []
    plan := ⟨[["hosts", "keys"], ["disks"], ["quotas", "tags"], ["grants"]]⟩ }

theorem estate_compiled : estateDocument.compile = .ok estate := by
  have planned : Plan.build (estateDocument.discovery.map Document.dependency) =
      .ok estate.plan := by cbv
  unfold Document.compile
  rw [planned]
  rfl

/-- There are no hosts, and keys must not be listed. -/
def guardedAnswer (call : VendorCall) : Answer :=
  if call.request.resource = "keys" then .error (.fatal "list_keys" "forbidden")
  else .ok (.array [])

def guarded : Client Unit := .ofFunction "guarded" guardedAnswer

theorem guarded_answersBy : guarded.AnswersBy guardedAnswer :=
  Client.ofFunction_answersBy "guarded" guardedAnswer

def estateUnit : UnitContext := ⟨⟨"north", "compute", "main", "west"⟩, .standard⟩

def estateRun (parallelism : Nat) : Option Cache × Session Unit :=
  estate.discover guarded estateUnit parallelism ⟨(), [], false⟩

def estateEnds : List (String × DiscoveryStatus × Option Reason) :=
  [("disks", .skipped, some (.noParentItems "hosts")),
    ("grants", .skipped, some (.upstreamFailed "keys")), ("hosts", .emitted, none),
    ("keys", .failed, some (.iterationFailed "Vendor error in 'list_keys': forbidden")),
    ("quotas", .emitted, none), ("tags", .skipped, some (.parentUnavailable "disks"))]

/-- Without hosts, disks and tags are skipped, yet quotas run after the skipped
disks; the failure of keys stops grants. -/
theorem estate_outcomes :
    guarded.NeverCrashes ∧ estateDocument.compile = .ok estate ∧
    ∃ cache, (estateRun 2).1 = some cache ∧
      cache.map (fun e => (e.1, e.2.status, e.2.reason)) = estateEnds ∧
      ∀ d ∈ estate.discoveries, ∃ r, cache.get? d.id = some r ∧ estate.Outcome cache d r := by
  have quiet := guarded_answersBy.neverCrashes
  obtain ⟨cache, ended, _, outcomes, _⟩ := discovers_outcomes quiet estate_compiled
    (discover_discovers guarded estateUnit estate 2 ⟨(), [], false⟩)
  refine ⟨quiet, estate_compiled, cache, ended, ?_, ?_⟩
  · have told : (estateRun 2).1.map (List.map fun e => (e.1, e.2.status, e.2.reason)) =
        some estateEnds := by decide +kernel
    rw [show (estateRun 2).1 = some cache from ended] at told
    exact Option.some.inj told
  · intro d known
    obtain ⟨r, found, _, outcome⟩ := outcomes d known
    exact ⟨r, found, outcome⟩

end Catalog

end CloudAudit
