import CloudAudit.Proofs.DiscoveryAnswered
import CloudAudit.Proofs.DiscoveryReads

set_option autoImplicit false

/- The items a discovery had when it failed. They stay in its result, and another
discovery reads them only through a template that asks for them. -/
namespace CloudAudit

open Relation

/-- Results with the items of failed discoveries dropped, but for those that are spared. -/
def Cache.dropPartial (c : Cache) (spared : String → Bool) : Cache :=
  c.map fun (id, r) =>
    (id, if r.status = .failed ∧ spared id = false then { r with items := [], resourceIds := [] }
      else r)

namespace Cache

variable {c : Cache} {spared : String → Bool}

theorem get?_dropPartial (c : Cache) (spared : String → Bool) (id : String) :
    (c.dropPartial spared).get? id = (c.get? id).map fun r =>
      if r.status = .failed ∧ spared id = false then { r with items := [], resourceIds := [] }
      else r := by
  induction c with
  | nil => rfl
  | cons entry rest ih =>
    obtain ⟨k, r⟩ := entry
    rw [dropPartial, List.map_cons, get?, get?]
    by_cases same : k = id
    · simp only [same, ↓reduceIte, Option.map_some]
    · simp only [same, ↓reduceIte]
      exact ih

theorem mem_of_get? {id : String} {r : DiscoveryResult} (found : c.get? id = some r) :
    (id, r) ∈ c := by
  induction c with
  | nil => cases found
  | cons entry rest ih =>
    obtain ⟨k, q⟩ := entry
    rw [get?] at found
    by_cases same : k = id
    · rw [if_pos same] at found
      rw [same, Option.some.inj found]
      exact List.mem_cons_self
    · rw [if_neg same] at found
      exact List.mem_cons_of_mem _ (ih found)

theorem dropPartial_all (c : Cache) (all : ∀ id, spared id = true) : c.dropPartial spared = c := by
  simp [dropPartial, all]

/-- How a discovery ended is kept. -/
theorem any_status_dropPartial (id : String) (status : DiscoveryStatus) :
    ((c.dropPartial spared).get? id).any (·.status = status) =
      (c.get? id).any (·.status = status) := by
  rw [get?_dropPartial]
  cases c.get? id with
  | none => rfl
  | some r =>
    simp only [Option.map_some, Option.any_some]
    split <;> rfl

theorem items_dropPartial {id : String} (kept : spared id = true) :
    ((c.dropPartial spared).get? id).map (·.items) = (c.get? id).map (·.items) := by
  rw [get?_dropPartial]
  simp [kept]

end Cache

namespace Discovery

variable {d : Discovery} {c : Cache} {spared : String → Bool}

/-- A failed discovery is not iterated over, so its items give no iteration. -/
theorem turns_dropPartial (d : Discovery) (c : Cache) (spared : String → Bool) :
    d.turns (c.dropPartial spared) = d.turns c := by
  unfold turns
  simp only [Cache.any_status_dropPartial]
  cases d.dependsOn.find? fun id => (c.get? id).any (·.status = .failed) with
  | some id => rfl
  | none =>
    cases d.forEach with
    | none => rfl
    | some parent =>
      simp only [Cache.get?_dropPartial]
      cases c.get? parent with
      | none => rfl
      | some r =>
        by_cases failed : r.status = .failed
        · cases spared parent with
          | true => simp
          | false => simp [DiscoveryResult.isEmitted, failed]
        · simp [failed]

/-- Without the items of failed discoveries that its templates do not lead to, a
discovery is the same program. -/
theorem run_dropPartial (u : UnitContext) (d : Discovery) (c : Cache) :
    d.run u (c.dropPartial d.reads) = d.run u c := by
  refine run_congr (turns_dropPartial d c d.reads) fun p member rest steps => ?_
  have reads : ∀ id, p.readsItems id = true → d.reads id = true :=
    fun id leads => List.any_eq_true.mpr ⟨p, member, leads⟩
  cases rest with
  | nil =>
    rw [Cache.dropPartial_all c fun id => reads id (by simp [Path.readsItems, steps])]
  | cons step more =>
    apply Binding.walk_discoveries_congr
    intro id named
    exact Cache.items_dropPartial (reads id (by simp [Path.readsItems, steps, named]))

end Discovery

namespace Catalog

variable {u : UnitContext} {c : Catalog} {answer : VendorCall → Answer}

/-- In every run of a compiled catalog whose calls a function answers, a discovery that
is executed waits on none that failed, and its result and calls are those it has without
the items of the failed discoveries that its own templates do not lead to. -/
theorem discovers_unread {σ : Type} {client : Client σ} (fixed : client.AnswersBy answer)
    {doc : Document} (compiled : doc.compile = .ok c) {parallelism : Nat} {s t : Session σ}
    {outcome : Option Cache} (run : Discovers client u c parallelism s outcome t) :
    ∃ cache, outcome = some cache ∧ ∀ n wave, c.plan.waves[n]? = some wave →
      ∃ earlier : Progress, Seen c cache n earlier ∧
        ∀ d ∈ c.discoveries, d.id ∈ wave → earlier.blocked.lookup d.id = none →
          (∀ id, TransGen c.Waits d.id id → ∃ r, earlier.cache.get? id = some r ∧
            r.status ≠ .failed) ∧
          cache.get? d.id = some ((d.run u earlier.cache).eval answer) ∧
          d.run u (earlier.cache.dropPartial d.reads) = d.run u earlier.cache := by
  have planned := planned_of_compile compiled
  refine ⟨_, (run.answered fixed planned).1, fun n wave present => ?_⟩
  obtain ⟨earlier, seen, results⟩ := answered_seen planned u answer present
  refine ⟨earlier, seen, fun d known member free => ?_⟩
  have clear := seen.blocked wave present d member
  rw [free] at clear
  refine ⟨fun id walk => ?_, ?_, Discovery.run_dropPartial u d earlier.cache⟩
  · obtain ⟨r, before, final⟩ := seen.kept id (planned.upstream_earlier present member walk)
    exact ⟨r, before, fun failed => clear ⟨id, walk, r, final, failed⟩⟩
  · have own := (results d known member).1
    rwa [runOne, free] at own

/-- The names of all items of a discovery, as written and compiled. -/
def namesText (source : String) : String := "\x7b\x7b discoveries." ++ source ++ "[].name \x7d\x7d"

def namesOf (source : String) : Template :=
  ⟨namesText source, [.expr (.path ⟨"discoveries." ++ source ++ "[].name",
    [.key Scope.discoveriesName, .key source, .flatten, .key "name"]⟩)]⟩

/-- A discovery that tallies the names of another one, as written. -/
def tally (id source reference : String) : DiscoveryEntry :=
  { id, dependsOn := [reference],
    calls := [{ action := "eval", params := [("names", .string (namesText source))] }] }

/-- Such a discovery, compiled. -/
def tallier (id source reference : String) : Discovery :=
  { id, calls := [⟨.eval, [("names", .template (namesOf source))], "response"⟩], forEach := none,
    dependsOn := [reference], emit := none, onError := .fail, idField := none }

theorem tally_compiled {service id source reference : String} (named : Text.allBlank id = false)
    (read : Template.parse (namesText source) = .ok (namesOf source)) :
    Document.compileDiscovery service (tally id source reference) =
      .ok (tallier id source reference) := by
  have params : Param.compileFields [("names", .string (namesText source))] =
      .ok [("names", .template (namesOf source))] := by
    simp only [Param.compileFields, Param.compile, read]
    rfl
  have called : Document.compileCalls service id 0 (tally id source reference).calls =
      .ok (tallier id source reference).calls := by
    simp only [tally, Document.compileCalls, Document.compileCall, params]
    rfl
  unfold Document.compileDiscovery
  rw [show (tally id source reference).id = id from rfl, called, named]
  rfl

/-- Disks are listed host by host and must all be listed. Totals and labels wait on
quotas only: totals tally the disks, and labels the hosts. -/
def surveyDocument : Document :=
  { provider := "north", service := "compute",
    discovery := [{ listing "disks" (some "hosts") [] with onError := some .fail },
      listing "hosts" none [], tally "labels" "hosts" "quotas",
      listing "quotas" none ["hosts"], tally "totals" "disks" "quotas"] }

def survey : Catalog :=
  { provider := "north", service := "compute", coverage := .regional, version := none,
    discoveries := [{ lister "disks" (some "hosts") [] with onError := .fail },
      lister "hosts" none [], tallier "labels" "hosts" "quotas",
      lister "quotas" none ["hosts"], tallier "totals" "disks" "quotas"]
    checks := []
    plan := ⟨[["hosts"], ["disks", "quotas"], ["labels", "totals"]]⟩ }

theorem namesOf_disks : Template.parse (namesText "disks") = .ok (namesOf "disks") :=
  Template.parse_marker rfl rfl (by decide) rfl

theorem namesOf_hosts : Template.parse (namesText "hosts") = .ok (namesOf "hosts") :=
  Template.parse_marker rfl rfl (by decide) rfl

theorem survey_compiled : surveyDocument.compile = .ok survey := by
  have planned : Plan.build [⟨"disks", ["hosts"]⟩, ⟨"hosts", []⟩, ⟨"labels", ["quotas"]⟩,
      ⟨"quotas", ["hosts"]⟩, ⟨"totals", ["quotas"]⟩] =
      .ok ⟨[["hosts"], ["disks", "quotas"], ["labels", "totals"]]⟩ := by cbv
  refine compile_eq_ok.mpr ⟨⟨by decide, by decide⟩, planned, mapM_eq_ok.mpr ?_, rfl, rfl, rfl, rfl,
    rfl⟩
  exact .cons rfl (.cons rfl (.cons (tally_compiled rfl namesOf_hosts) (.cons rfl
    (.cons (tally_compiled rfl namesOf_disks) .nil))))

/-- There are two hosts; the disks of the second one cannot be listed. -/
def surveyAnswer (call : VendorCall) : Answer :=
  if call.request.resource = "hosts" then
    .ok (.array [.object [("name", .string "a")], .object [("name", .string "b")]])
  else if call.request.resourceRef = some "a" then .ok (.array [.object [("name", .string "a1")]])
  else if call.request.resource = "disks" then .error (.fatal "list_disks" "forbidden")
  else .ok (.array [])

def surveyClient : Client Unit := .ofFunction "survey" surveyAnswer

theorem surveyClient_answersBy : surveyClient.AnswersBy surveyAnswer :=
  Client.ofFunction_answersBy "survey" surveyAnswer

def surveyRun : Option Cache × Session Unit :=
  survey.discover surveyClient estateUnit 1 ⟨(), [], false⟩

/-- What labels and totals see. -/
def surveyEarlier : Option Progress :=
  (runWaves surveyClient estateUnit survey 1 [["hosts"], ["disks", "quotas"]] {}
    ⟨(), [], false⟩).1

/-- Items of a result as text. -/
def itemTexts (r : DiscoveryResult) : List String := r.items.map fun item => (Json.object item).compact

/-- Totals are executed and have a disk that was found before the disks failed. Without
the items of the failed disks they have none. -/
theorem survey_totals_partial :
    surveyDocument.compile = .ok survey ∧ surveyClient.AnswersBy surveyAnswer ∧
    ∃ cache earlier, surveyRun.1 = some cache ∧ surveyEarlier = some earlier ∧
      earlier.blocked.lookup "totals" = none ∧
      (earlier.cache.get? "disks").any (·.status = .failed) ∧
      cache.get? "totals" ≠ some (((tallier "totals" "disks" "quotas").run estateUnit
        (earlier.cache.dropPartial fun _ => false)).eval surveyAnswer) := by
  have totals : surveyRun.1.map (fun cache => (cache.get? "totals").map itemTexts) =
      some (some ["\x7b\"names\":[\"a1\"]\x7d"]) := by decide +kernel
  have facts : surveyEarlier.map (fun earlier => (earlier.blocked.lookup "totals",
      (earlier.cache.get? "disks").any (·.status = .failed),
      itemTexts (((tallier "totals" "disks" "quotas").run estateUnit
        (earlier.cache.dropPartial fun _ => false)).eval surveyAnswer))) =
      some (none, true, ["\x7b\"names\":[]\x7d"]) := by decide +kernel
  obtain ⟨cache, ended, found⟩ := Option.map_eq_some_iff.mp totals
  obtain ⟨earlier, before, facts⟩ := Option.map_eq_some_iff.mp facts
  obtain ⟨free, failed, dropped⟩ := Prod.mk.inj facts |>.imp_right Prod.mk.inj
  refine ⟨survey_compiled, surveyClient_answersBy, cache, earlier, ended, before, free, failed, ?_⟩
  intro same
  rw [same, Option.map_some, dropped] at found
  exact absurd found (by decide)

def surveyStatuses : List (String × DiscoveryStatus) :=
  [("disks", .failed), ("hosts", .emitted), ("labels", .emitted), ("quotas", .emitted),
    ("totals", .emitted)]

/-- Labels come out the same without the items of the failed disks. -/
theorem survey_unread :
    surveyClient.AnswersBy surveyAnswer ∧ surveyDocument.compile = .ok survey ∧
    (tallier "labels" "hosts" "quotas").reads "disks" = false ∧
    ∃ cache earlier, surveyRun.1 = some cache ∧
      cache.map (fun e => (e.1, e.2.status)) = surveyStatuses ∧
      Seen survey cache 2 earlier ∧ earlier.blocked.lookup "labels" = none ∧
      cache.get? "labels" = some (((tallier "labels" "hosts" "quotas").run estateUnit
        (earlier.cache.dropPartial (tallier "labels" "hosts" "quotas").reads)).eval
          surveyAnswer) := by
  obtain ⟨cache, ended, waves⟩ := discovers_unread surveyClient_answersBy survey_compiled
    (discover_discovers surveyClient estateUnit survey 1 ⟨(), [], false⟩)
  obtain ⟨earlier, seen, executed⟩ := waves 2 ["labels", "totals"] rfl
  have statuses : cache.map (fun e => (e.1, e.2.status)) = surveyStatuses := by
    have told : surveyRun.1.map (List.map fun e => (e.1, e.2.status)) = some surveyStatuses := by
      decide +kernel
    rw [show surveyRun.1 = some cache from ended] at told
    exact Option.some.inj told
  have labels : tallier "labels" "hosts" "quotas" ∈ survey.discoveries :=
    List.mem_cons_of_mem _ (List.mem_cons_of_mem _ List.mem_cons_self)
  have free : earlier.blocked.lookup "labels" = none := by
    have clear := seen.blocked _ rfl (tallier "labels" "hosts" "quotas") List.mem_cons_self
    cases known : earlier.blocked.lookup "labels" with
    | none => rfl
    | some reason =>
      rw [show earlier.blocked.lookup (tallier "labels" "hosts" "quotas").id = some reason
        from known] at clear
      obtain ⟨e, ⟨⟨walk, r, found, failed⟩, _⟩, _⟩ := clear
      have listed := List.mem_map_of_mem (f := fun e => (e.1, e.2.status)) (Cache.mem_of_get? found)
      rw [statuses] at listed
      simp only [failed, surveyStatuses, List.mem_cons, Prod.mk.injEq, reduceCtorEq, and_false,
        and_true, List.not_mem_nil, or_false] at listed
      subst listed
      exact absurd (mem_dependentsOf.mpr walk) (by decide)
  obtain ⟨_, result, same⟩ := executed _ labels List.mem_cons_self free
  rw [← same] at result
  exact ⟨surveyClient_answersBy, survey_compiled, by decide, cache, earlier, ended, statuses, seen,
    free, result⟩

end Catalog

end CloudAudit
