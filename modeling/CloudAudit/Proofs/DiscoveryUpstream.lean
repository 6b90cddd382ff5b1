import CloudAudit.Proofs.CatalogUpstream
import CloudAudit.Proofs.DiscoveryPartial
import Mathlib.Data.List.Find

set_option autoImplicit false

/- What a discovery comes to depends on what it waits on, and on nothing else. In two
catalogs that share it with all that it waits on, where no template looks further, it
has the same result, whatever the other discoveries are and however they end. -/
namespace CloudAudit

open Relation

namespace Program

/-- Answers that agree on the calls that are made lead to the same end. -/
theorem eval_congr {α : Type} {answer answer' : VendorCall → Answer} (p : Program α)
    (agree : ∀ call ∈ p.trace answer, answer' call = answer call) :
    p.eval answer' = p.eval answer := by
  induction p with
  | done a => rfl
  | ask call next ih =>
    simp only [trace, List.forall_mem_cons] at agree
    rw [eval, eval, agree.1]
    exact ih (answer call) agree.2

end Program

namespace Discovery

variable {d : Discovery} {c c' : Cache}

/-- Iterations come from the results that are waited on. -/
theorem turns_congr (same : ∀ id, d.waitsOn id = true → c.get? id = c'.get? id) :
    d.turns c = d.turns c' := by
  have failed : (d.dependsOn.find? fun id => (c.get? id).any (·.status = .failed)) =
      d.dependsOn.find? fun id => (c'.get? id).any (·.status = .failed) := by
    apply List.find?_congr
    intro id listed
    rw [same id (by simp [waitsOn, listed])]
  unfold turns
  rw [failed]
  cases d.dependsOn.find? fun id => (c'.get? id).any (·.status = .failed) with
  | some id => rfl
  | none =>
    cases iterates : d.forEach with
    | none => rfl
    | some parent =>
      have waits : d.waitsOn parent = true := by simp [waitsOn, iterates]
      simp only [same parent waits]

/-- Paths into the results of others name, as a key, only some of them. -/
def ReadsOnly (d : Discovery) (named : String → Prop) : Prop :=
  ∀ p ∈ d.paths, ∀ rest, p.steps = .key Scope.discoveriesName :: rest →
    ∃ id more, rest = .key id :: more ∧ named id

theorem ReadsOnly.imp {named other : String → Prop} (reads : d.ReadsOnly named)
    (also : ∀ id, named id → other id) : d.ReadsOnly other := by
  intro p member rest steps
  obtain ⟨id, more, same, inside⟩ := reads p member rest steps
  exact ⟨id, more, same, also id inside⟩

/-- Where the results that are waited on and those that are named are the same, a
discovery is the same program. -/
theorem run_of_same {u : UnitContext} {named : String → Prop} (reads : d.ReadsOnly named)
    (waited : ∀ id, d.waitsOn id = true → c.get? id = c'.get? id)
    (same : ∀ id, named id → c.get? id = c'.get? id) : d.run u c = d.run u c' := by
  refine run_congr (turns_congr waited) fun p member rest steps => ?_
  obtain ⟨id, more, rfl, inside⟩ := reads p member rest steps
  apply Binding.walk_discoveries_congr
  intro x key
  obtain rfl := Option.some.inj key
  rw [same id inside]

end Discovery

namespace Catalog

/-- What a discovery sees of results that end as a cache: what the members of its wave see. -/
def SeenBy (c : Catalog) (cache : Cache) (d : Discovery) (earlier : Progress) : Prop :=
  ∃ (n : Nat) (wave : List String), c.plan.waves[n]? = some wave ∧ d.id ∈ wave ∧
    Seen c cache n earlier

section

variable {c c' : Catalog} {ds : List Discovery} {d : Discovery} {u : UnitContext}
  {cache cache' : Cache} {earlier earlier' : Progress}

/-- A discovery sees the results of all that it waits on as they are in the end. -/
theorem SeenBy.upstream (seen : SeenBy c cache d earlier) (planned : c.Planned) {id : String}
    (walk : TransGen c.Waits d.id id) : earlier.cache.get? id = cache.get? id := by
  obtain ⟨n, wave, present, inside, seen⟩ := seen
  obtain ⟨r, before, final⟩ := seen.kept id (planned.upstream_earlier present inside walk)
  rw [before, final]

theorem SeenBy.blocked (seen : SeenBy c cache d earlier) :
    match earlier.blocked.lookup d.id with
    | some reason => ∃ e, c.FirstFailure cache d.id e ∧ reason = .upstreamFailed e
    | none => ¬∃ e, c.FailedUpstream cache d.id e := by
  obtain ⟨n, wave, present, inside, seen⟩ := seen
  exact seen.blocked wave present d inside

/-- A shared discovery is blocked alike where the results upstream of it are the same. -/
theorem Shared.blocked (shared : Shared c c' ds) (planned : c.Planned) (planned' : c'.Planned)
    (member : d ∈ ds) (same : ∀ id, TransGen c.Waits d.id id → cache.get? id = cache'.get? id)
    (seen : SeenBy c cache d earlier) (seen' : SeenBy c' cache' d earlier') :
    earlier.blocked.lookup d.id = earlier'.blocked.lookup d.id := by
  have clear := seen.blocked
  have clear' := seen'.blocked
  have back : ∀ id, TransGen c'.Waits d.id id → cache'.get? id = cache.get? id :=
    fun id walk => (same id (shared.symm.upstream planned' member walk).2).symm
  cases here : earlier.blocked.lookup d.id with
  | none =>
    cases there : earlier'.blocked.lookup d.id with
    | none => rfl
    | some reason =>
      rw [here] at clear
      rw [there] at clear'
      obtain ⟨e, first, _⟩ := clear'
      exact absurd ⟨e, shared.symm.failedUpstream planned' member back first.1⟩ clear
  | some reason =>
    rw [here] at clear
    obtain ⟨e, first, rfl⟩ := clear
    cases there : earlier'.blocked.lookup d.id with
    | none =>
      rw [there] at clear'
      exact absurd ⟨e, shared.failedUpstream planned member same first.1⟩ clear'
    | some reason =>
      rw [there] at clear'
      obtain ⟨e', second, rfl⟩ := clear'
      rw [shared.firstFailure planned planned' member same first second]

/-- A shared discovery is the same program in both catalogs where the results upstream
of it are the same. -/
theorem Shared.runOne (shared : Shared c c' ds) (planned : c.Planned) (planned' : c'.Planned)
    (member : d ∈ ds) (reads : d.ReadsOnly (TransGen c.Waits d.id))
    (same : ∀ id, TransGen c.Waits d.id id → cache.get? id = cache'.get? id)
    (seen : SeenBy c cache d earlier) (seen' : SeenBy c' cache' d earlier') :
    runOne u earlier d = runOne u earlier' d := by
  have before : ∀ id, TransGen c.Waits d.id id →
      earlier.cache.get? id = earlier'.cache.get? id := by
    intro id walk
    have walk' := (shared.upstream planned member walk).2
    rw [seen.upstream planned walk, seen'.upstream planned' walk', same id walk]
  have waited : ∀ id, d.waitsOn id = true →
      earlier.cache.get? id = earlier'.cache.get? id :=
    fun id waits => before id (.single ((waits_iff_waitsOn planned (shared.left d member)).mpr waits))
  unfold Catalog.runOne
  rw [shared.blocked planned planned' member same seen seen',
    Discovery.run_of_same reads waited before]

variable {answer answer' : VendorCall → Answer}

/-- Shared discoveries have the same results in two catalogs, when none of them reads
further than it waits and the answers agree on all calls of the first catalog. -/
theorem Shared.results (shared : Shared c c' ds) (planned : c.Planned) (planned' : c'.Planned)
    (reads : ∀ d ∈ ds, d.ReadsOnly (TransGen c.Waits d.id))
    (agree : ∀ call ∈ answeredCalls u c answer, answer' call = answer call) :
    ∀ (n : Nat) (wave : List String), c.plan.waves[n]? = some wave → ∀ d ∈ ds, d.id ∈ wave →
      ∃ r, (answeredCache u c answer).get? d.id = some r ∧
        (answeredCache u c' answer').get? d.id = some r := by
  intro n
  -- By induction on the wave: what a discovery waits on is in earlier waves.
  induction n using Nat.strong_induction_on with
  | _ n ih =>
    intro wave present d member inside
    obtain ⟨n', wave', present', inside'⟩ := planned'.exists_wave (shared.right d member)
    obtain ⟨earlier, seen, ran⟩ := answered_seen planned u answer present
    obtain ⟨earlier', seen', ran'⟩ := answered_seen planned' u answer' present'
    have same : ∀ id, TransGen c.Waits d.id id →
        (answeredCache u c answer).get? id = (answeredCache u c' answer').get? id := by
      intro id walk
      obtain ⟨m, below, before, early, listed⟩ :=
        Plan.exists_wave_lt (planned.upstream_earlier present inside walk)
      obtain ⟨⟨e, known, rfl⟩, _⟩ := shared.upstream planned member walk
      obtain ⟨r, here, there⟩ := ih m below before early e known listed
      rw [here, there]
    have program : Catalog.runOne u earlier d = Catalog.runOne u earlier' d :=
      shared.runOne planned planned' member (reads d member) same ⟨n, wave, present, inside, seen⟩
        ⟨n', wave', present', inside', seen'⟩
    obtain ⟨here, calls⟩ := ran d (shared.left d member) inside
    obtain ⟨there, _⟩ := ran' d (shared.right d member) inside'
    rw [← program, Program.eval_congr _ fun call made => agree call (calls call made)] at there
    exact ⟨_, here, there⟩

end

/-- The catalog of a discovery and all that it waits on. -/
theorem compile_upstream {doc : Document} {c : Catalog} (compiled : doc.compile = .ok c)
    (id : String) :
    ∃ c', (doc.keep ((c.upstream id).map (·.id))).compile = .ok c' ∧
      c'.discoveries = c.upstream id := by
  have planned := planned_of_compile compiled
  have listed : ∀ d ∈ c.discoveries, d.id ∈ (c.upstream id).map (·.id) ↔ d ∈ c.upstream id := by
    intro d known
    constructor
    · intro inside
      obtain ⟨e, member, same⟩ := List.mem_map.mp inside
      rwa [← List.inj_on_of_nodup_map planned.distinct (mem_upstream.mp member).1 known same]
    · exact fun member => List.mem_map_of_mem member
  have shared : Shared c c (c.upstream id) :=
    shared_upstream planned fun e member => (mem_upstream.mp member).1
  have closed : ∀ d ∈ c.discoveries, d.id ∈ (c.upstream id).map (·.id) →
      ∀ x, d.waitsOn x = true → x ∈ (c.upstream id).map (·.id) := by
    intro d known inside x waits
    obtain ⟨e, member, same⟩ := shared.closed d ((listed d known).mp inside) x waits
    exact same ▸ List.mem_map_of_mem member
  obtain ⟨c', again, discoveries, _⟩ := compile_keep compiled closed
  refine ⟨c', again, discoveries.trans (List.filter_congr fun d known => ?_)⟩
  rw [decide_eq_decide, listed d known, upstream, List.mem_filter, decide_eq_true_eq,
    and_iff_right known]

/-- Let no template of a discovery, nor of all that it waits on, look further than they
wait. Then the discovery comes to the same result in the catalog of these discoveries
alone, and in every catalog that has them, its own one included: whatever else is there,
whatever that waits on and however its calls are answered. -/
theorem discovers_modular {doc : Document} {c : Catalog} (compiled : doc.compile = .ok c)
    {d : Discovery} (known : d ∈ c.discoveries)
    (reads : ∀ e ∈ c.upstream d.id, e.ReadsOnly (TransGen c.Waits e.id)) :
    ∃ c', (doc.keep ((c.upstream d.id).map (·.id))).compile = .ok c' ∧
      c'.discoveries = c.upstream d.id ∧
      ∀ {σ : Type} {client : Client σ} {answer : VendorCall → Answer} {u : UnitContext}
        {parallelism : Nat} {s t : Session σ} {outcome : Option Cache},
        client.AnswersBy answer → Discovers client u c' parallelism s outcome t →
        ∃ cache r made, outcome = some cache ∧ cache.get? d.id = some r ∧
          t.calls.Perm (made ++ s.calls) ∧
          ∀ {doc₂ : Document} {c₂ : Catalog}, doc₂.compile = .ok c₂ →
            (∀ e ∈ c.upstream d.id, e ∈ c₂.discoveries) →
            ∀ {τ : Type} {other : Client τ} {answer₂ : VendorCall → Answer}
              {parallelism₂ : Nat} {s₂ t₂ : Session τ} {outcome₂ : Option Cache},
              other.AnswersBy answer₂ → (∀ call ∈ made, answer₂ call = answer call) →
              Discovers other u c₂ parallelism₂ s₂ outcome₂ t₂ →
              ∃ cache₂, outcome₂ = some cache₂ ∧ cache₂.get? d.id = some r := by
  have planned := planned_of_compile compiled
  obtain ⟨c', again, discoveries⟩ := compile_upstream compiled d.id
  have planned' := planned_of_compile again
  have here : ∀ e ∈ c.upstream d.id, e ∈ c'.discoveries := fun e member => discoveries ▸ member
  have restricted := shared_upstream planned here
  have reads' : ∀ e ∈ c.upstream d.id, e.ReadsOnly (TransGen c'.Waits e.id) :=
    fun e member => (reads e member).imp fun id walk => (restricted.upstream planned member walk).2
  have member : d ∈ c.upstream d.id := mem_upstream.mpr ⟨known, .refl⟩
  obtain ⟨n, wave, present, inside⟩ := planned'.exists_wave (here d member)
  refine ⟨c', again, discoveries, ?_⟩
  intro σ client answer u parallelism s t outcome fixed run
  obtain ⟨rfl, calls⟩ := run.answered fixed planned'
  -- The result is that of the part alone, with which any other catalog is then compared.
  have alone : Shared c' c' (c.upstream d.id) := ⟨here, here, restricted.closed⟩
  obtain ⟨r, result, _⟩ :=
    alone.results planned' planned' reads' (fun call _ => rfl) n wave present d member inside
  refine ⟨_, r, _, rfl, result, calls, ?_⟩
  intro doc₂ c₂ compiled₂ there τ other answer₂ parallelism₂ s₂ t₂ outcome₂ fixed₂ agree run₂
  have planned₂ := planned_of_compile compiled₂
  have shared : Shared c' c₂ (c.upstream d.id) := ⟨here, there, restricted.closed⟩
  obtain ⟨r₂, first, second⟩ :=
    shared.results planned' planned₂ reads' agree n wave present d member inside
  rw [result] at first
  obtain rfl := Option.some.inj first
  exact ⟨_, (run₂.answered fixed₂ planned₂).1, second⟩

/-- What labels wait on, and the labels. -/
def labelling : Catalog :=
  { survey with
    discoveries := [lister "hosts" none [], tallier "labels" "hosts" "quotas",
      lister "quotas" none ["hosts"]]
    plan := ⟨[["hosts"], ["quotas"], ["labels"]]⟩ }

theorem upstream_labels : (survey.upstream "labels").map (·.id) = ["hosts", "labels", "quotas"] := by
  decide

theorem labelling_compiled :
    (surveyDocument.keep ["hosts", "labels", "quotas"]).compile = .ok labelling := by
  have planned : Plan.build [⟨"hosts", []⟩, ⟨"labels", ["quotas"]⟩, ⟨"quotas", ["hosts"]⟩] =
      .ok ⟨[["hosts"], ["quotas"], ["labels"]]⟩ := by cbv
  refine compile_eq_ok.mpr ⟨⟨by decide, by decide⟩, planned, mapM_eq_ok.mpr ?_, rfl, rfl, rfl, rfl,
    rfl⟩
  exact .cons rfl (.cons (tally_compiled rfl namesOf_hosts) (.cons rfl .nil))

/-- The survey after a change: totals are gone, disks are listed after the labels, and
there are badges. -/
def patrolDocument : Document :=
  { provider := "north", service := "compute",
    discovery := [listing "badges" none [], listing "disks" none ["labels"],
      listing "hosts" none [], tally "labels" "hosts" "quotas", listing "quotas" none ["hosts"]] }

def patrol : Catalog :=
  { provider := "north", service := "compute", coverage := .regional, version := none,
    discoveries := [lister "badges" none [], lister "disks" none ["labels"],
      lister "hosts" none [], tallier "labels" "hosts" "quotas", lister "quotas" none ["hosts"]]
    checks := []
    plan := ⟨[["badges", "hosts"], ["quotas"], ["labels"], ["disks"]]⟩ }

theorem patrol_compiled : patrolDocument.compile = .ok patrol := by
  have planned : Plan.build [⟨"badges", []⟩, ⟨"disks", ["labels"]⟩, ⟨"hosts", []⟩,
      ⟨"labels", ["quotas"]⟩, ⟨"quotas", ["hosts"]⟩] =
      .ok ⟨[["badges", "hosts"], ["quotas"], ["labels"], ["disks"]]⟩ := by cbv
  refine compile_eq_ok.mpr ⟨⟨by decide, by decide⟩, planned, mapM_eq_ok.mpr ?_, rfl, rfl, rfl, rfl,
    rfl⟩
  exact .cons rfl (.cons rfl (.cons rfl (.cons (tally_compiled rfl namesOf_hosts) (.cons rfl .nil))))

/-- Only hosts and quotas may still be listed. -/
def patrolAnswer (call : VendorCall) : Answer :=
  if call.request.resource = "hosts" ∨ call.request.resource = "quotas" then surveyAnswer call
  else .error (.fatal "list" "forbidden")

def patrolClient : Client Unit := .ofFunction "patrol" patrolAnswer

def labellingRun : Option Cache × Session Unit :=
  labelling.discover surveyClient estateUnit 1 ⟨(), [], false⟩

def patrolRun : Option Cache × Session Unit :=
  patrol.discover patrolClient estateUnit 2 ⟨(), [], false⟩

/-- Labels name the hosts, which are upstream; hosts and quotas have no templates. -/
theorem labels_reads :
    ∀ e ∈ survey.upstream "labels", e.ReadsOnly (TransGen survey.Waits e.id) := by
  have listed : survey.upstream "labels" = labelling.discoveries := rfl
  rw [listed]
  intro e member p path rest steps
  rcases List.mem_cons.mp member with rfl | member
  · cases path
  rcases List.mem_cons.mp member with rfl | member
  · obtain rfl := List.mem_singleton.mp path
    cases steps
    exact ⟨"hosts", _, rfl, mem_dependentsOf.mp (by decide)⟩
  · obtain rfl := List.mem_singleton.mp member
    cases path

/-- On their own, in the survey and after the change, labels are the same. -/
theorem labels_modular :
    surveyDocument.compile = .ok survey ∧ patrolDocument.compile = .ok patrol ∧
    (∀ e ∈ survey.upstream "labels", e.ReadsOnly (TransGen survey.Waits e.id)) ∧
    (∀ e ∈ survey.upstream "labels", e ∈ patrol.discoveries) ∧
    ∃ alone whole changed r, labellingRun.1 = some alone ∧ surveyRun.1 = some whole ∧
      patrolRun.1 = some changed ∧ alone.get? "labels" = some r ∧ whole.get? "labels" = some r ∧
      changed.get? "labels" = some r ∧ itemTexts r = ["\x7b\"names\":[\"a\",\"b\"]\x7d"] := by
  have known : tallier "labels" "hosts" "quotas" ∈ survey.discoveries :=
    List.mem_cons_of_mem _ (List.mem_cons_of_mem _ List.mem_cons_self)
  have kept : ∀ e ∈ survey.upstream "labels", e ∈ patrol.discoveries :=
    fun e member => List.mem_cons_of_mem _ (List.mem_cons_of_mem _ member)
  have back : ∀ e ∈ survey.upstream "labels", e ∈ survey.discoveries :=
    fun e member => (mem_upstream.mp member).1
  obtain ⟨c', again, _, modular⟩ := discovers_modular survey_compiled known labels_reads
  rw [show (survey.upstream (tallier "labels" "hosts" "quotas").id).map (·.id) = _ from
    upstream_labels, labelling_compiled] at again
  obtain rfl := Except.ok.inj again
  obtain ⟨alone, r, made, ended, result, calls, others⟩ := modular surveyClient_answersBy
    (discover_discovers surveyClient estateUnit labelling 1 ⟨(), [], false⟩)
  have agree : ∀ call ∈ made, patrolAnswer call = surveyAnswer call := by
    intro call member
    have asked : labellingRun.2.calls.map (·.request.resource) = ["quotas", "hosts"] := by
      decide +kernel
    have listed := List.mem_map_of_mem (f := (·.request.resource))
      (calls.mem_iff.mpr (List.mem_append_left _ member))
    rw [show (labelling.discover surveyClient estateUnit 1 ⟨(), [], false⟩).2.calls.map _ = _ from
      asked] at listed
    unfold patrolAnswer
    rw [if_pos (by simpa [or_comm] using listed)]
  obtain ⟨whole, ended₁, result₁⟩ := others survey_compiled back surveyClient_answersBy
    (fun _ _ => rfl) (discover_discovers surveyClient estateUnit survey 1 ⟨(), [], false⟩)
  obtain ⟨changed, ended₂, result₂⟩ := others patrol_compiled kept
    (Client.ofFunction_answersBy "patrol" patrolAnswer) agree
    (discover_discovers patrolClient estateUnit patrol 2 ⟨(), [], false⟩)
  have named : labellingRun.1.map (fun cache => (cache.get? "labels").map itemTexts) =
      some (some ["\x7b\"names\":[\"a\",\"b\"]\x7d"]) := by decide +kernel
  rw [show labellingRun.1 = some alone from ended, Option.map_some,
    show alone.get? "labels" = some r from result, Option.map_some] at named
  exact ⟨survey_compiled, patrol_compiled, labels_reads, kept, alone, whole, changed, r, ended,
    ended₁, ended₂, result, result₁, result₂, Option.some.inj (Option.some.inj named)⟩

end Catalog

end CloudAudit
