import CloudAudit.Client.Rest
import CloudAudit.Proofs.UrlPaths

set_option autoImplicit false

/- The URLs of requests. Below an endpoint of the web a request is asked at the path of the endpoint
with its own names behind it, so no two requests of one kind share a path. Names that are dots are
the exception: they are left out, and what is asked is another place. Nothing of this rests on more
than how URLs are extended, so it is shown of any library that extends them so. -/
namespace CloudAudit.Rest

open Url (kept segment joined lead isDots Steady Named IsPath dropEmptyEnd shownSegments extended)

/-- How many names requests of a kind have. -/
def nameCount : Method → Nat
  | .list => 3
  | .aggregatedList => 3
  | .get => 4
  | .iamPolicy => 5

/-- The names of a request start with its account. -/
theorem names_eq_ok {m : Method} {r : Request} {ns : List String} (named : names m r = .ok ns) :
    ∃ rest, ns = r.account :: rest ∧ rest.length + 1 = nameCount m := by
  unfold names at named
  cases m <;> cases reference : r.resourceRef <;> rw [reference] at named <;> cases named <;>
    exact ⟨_, rfl, rfl⟩

/-- Nothing but a reference can be missing. -/
theorem names_eq_error {m : Method} {r : Request} {e : Failure} : names m r = .error e ↔
    r.resourceRef = none ∧ (m = .get ∨ m = .iamPolicy) ∧ e = .noReference := by
  unfold names
  cases m <;> cases r.resourceRef <;> simp [eq_comm]

theorem length_names {m : Method} {r : Request} {ns : List String} (named : names m r = .ok ns) :
    ns.length = nameCount m := by
  obtain ⟨rest, rfl, count⟩ := names_eq_ok named
  exact count

/-- What is taken of a library for the paths of URLs of the web. A path that is read has segments.
Names that are added stand behind it, each escaped to be a segment of its own, but for those that
are dots; and a form leaves the path as it is. -/
structure PathLaws {υ : Type} (lib : UrlLibrary υ) where
  isWeb : υ → Prop
  /-- The segments of a path; none where it has no segments. -/
  path? : υ → Option (List String)
  pathText : υ → String
  /-- The same URL with segments for its path. -/
  withPath : υ → List String → υ
  parsed : ∀ {text u}, lib.parse text = .ok u → isWeb u → ∃ path, path? u = some path ∧ IsPath path
  text : ∀ {u path}, path? u = some path → pathText u = (UrlPath.segments path).render
  form : ∀ u path pairs, path? (lib.addForm (withPath u path) pairs) = some path
  /-- A name adds one segment at most. -/
  extended : ∀ {u path}, isWeb u → path? u = some path → IsPath path → ∀ names, ∃ after,
    lib.extend? u names = some (withPath u after) ∧ IsPath after ∧
      shownSegments after ≤ shownSegments (dropEmptyEnd path) + names.length
  steady : ∀ {u path}, isWeb u → path? u = some path → IsPath path →
    ∀ {names}, (∀ name ∈ names, Steady name) → lib.extend? u names =
      some (withPath u (joined (dropEmptyEnd path)
        ((names.filter fun name => !isDots name).map (segment true))))

section

variable {υ : Type} {lib : UrlLibrary υ} (paths : PathLaws lib) {endpoint : String} {base : υ}
  {path : List String}

/-- The URL of a request at a path. -/
def askedAt (base : υ) (r : Request) (path : List String) : υ :=
  lib.addForm (paths.withPath base path) (query r.params)

/-- What requests below an endpoint are asked at. `front` is the path of the endpoint without an
empty segment at its end, and one that is only a slash gives way. -/
structure AskedBelow (endpoint : String) (base : υ) (front : List String) : Prop where
  /-- A client asks there unless the reference is a URL itself. -/
  asked : ∀ (c : Rest) (m : Method) (r : Request), c.endpoints.lookup r.service = some endpoint →
    (∀ reference, r.resourceRef = some reference → isAbsolute reference = false) →
      c.url lib m r = urlBelow lib endpoint m r
  refused : ∀ m r e, urlBelow lib endpoint m r = .error e ↔
    r.resourceRef = none ∧ (m = .get ∨ m = .iamPolicy) ∧ e = .noReference
  /-- Names that are dots are left out. -/
  built : ∀ m r ns, names m r = .ok ns → (∀ name ∈ ns, Steady name) →
    urlBelow lib endpoint m r = .ok (askedAt paths base r
      (joined front ((ns.filter fun name => !isDots name).map (segment true))))
  /-- Where none is, all of them stand in the path. -/
  whole : ∀ m r ns, names m r = .ok ns → (∀ name ∈ ns, Named name) →
    (front = [""] → kept r.account ≠ []) →
      urlBelow lib endpoint m r = .ok (askedAt paths base r
        (lead front ++ ns.map (segment true)))
  /-- Requests of one kind share a path only where their names are the same. -/
  apart : ∀ m r r' ns ns' u u', names m r = .ok ns → names m r' = .ok ns' →
    (∀ name ∈ ns ++ ns', Named name) → urlBelow lib endpoint m r = .ok u →
      urlBelow lib endpoint m r' = .ok u' →
        (paths.pathText u = paths.pathText u' ↔ ns.map kept = ns'.map kept)
  /-- What is asked for one resource is no list. -/
  no_list : ∀ r r' ns u u', names .get r = .ok ns → (∀ name ∈ ns, Named name) →
    (front = [""] → kept r.account ≠ []) → urlBelow lib endpoint .get r = .ok u →
      urlBelow lib endpoint .list r' = .ok u' → paths.pathText u ≠ paths.pathText u'

theorem url_eq_urlBelow {c : Rest} {m : Method} {r : Request}
    (served : c.endpoints.lookup r.service = some endpoint)
    (relative : ∀ reference, r.resourceRef = some reference → isAbsolute reference = false) :
    c.url lib m r = urlBelow lib endpoint m r := by
  unfold url
  rw [served]
  cases reference : r.resourceRef with
  | none => rfl
  | some text =>
    simp only [relative text reference, Bool.false_eq_true, ↓reduceIte]
    rfl

/-- A request is asked where its names lead from the endpoint. -/
theorem urlBelow_eq_ok (parsed : lib.parse endpoint = .ok base) {m : Method} {r : Request}
    {ns after : List String} (named : names m r = .ok ns)
    (led : lib.extend? base ns = some (paths.withPath base after)) :
    urlBelow lib endpoint m r = .ok (askedAt paths base r after) := by
  unfold urlBelow
  rw [parsed, named]
  simp only [Except.mapError, bind, Except.bind, led]
  rfl

section

variable (parsed : lib.parse endpoint = .ok base) (web : paths.isWeb base)
  (known : paths.path? base = some path) (is_path : IsPath path)

include parsed web known is_path

theorem urlBelow_eq_error {m : Method} {r : Request} {e : Failure} :
    urlBelow lib endpoint m r = .error e ↔ names m r = .error e := by
  cases named : names m r with
  | error cause =>
    have lost : urlBelow lib endpoint m r = .error cause := by
      unfold urlBelow
      rw [parsed, named]
      rfl
    rw [lost, Except.error.injEq, Except.error.injEq]
  | ok ns =>
    obtain ⟨after, led, _⟩ := paths.extended web known is_path ns
    rw [urlBelow_eq_ok paths parsed named led]
    exact iff_of_false (fun same => by cases same) (fun same => by cases same)

/-- What is asked has a path, of no more segments than the endpoint and the names of the request. -/
theorem path_of_urlBelow {m : Method} {r : Request} {ns : List String} {u : υ}
    (named : names m r = .ok ns) (made : urlBelow lib endpoint m r = .ok u) :
    ∃ after, paths.path? u = some after ∧ IsPath after ∧
      shownSegments after ≤ shownSegments (dropEmptyEnd path) + ns.length := by
  obtain ⟨after, led, still, few⟩ := paths.extended web known is_path ns
  rw [urlBelow_eq_ok paths parsed named led] at made
  obtain rfl := Except.ok.inj made
  exact ⟨after, paths.form base after _, still, few⟩

/-- Where no name is dots, the names stand behind the path of the endpoint. -/
theorem urlBelow_named {m : Method} {r : Request} {ns : List String} (named : names m r = .ok ns)
    (own : ∀ name ∈ ns, Named name) : urlBelow lib endpoint m r = .ok (askedAt paths base r
      (joined (dropEmptyEnd path) (ns.map (segment true)))) := by
  have steady := paths.steady web known is_path fun name member => .inr (own name member)
  rw [Url.filter_named own] at steady
  exact urlBelow_eq_ok paths parsed named steady

theorem path_of_named {m : Method} {r : Request} {ns : List String} {u : υ}
    (named : names m r = .ok ns) (own : ∀ name ∈ ns, Named name)
    (made : urlBelow lib endpoint m r = .ok u) :
    paths.path? u = some (joined (dropEmptyEnd path) (ns.map (segment true))) := by
  rw [urlBelow_named paths parsed web known is_path named own] at made
  rw [← Except.ok.inj made, askedAt, paths.form]

end

/-- Paths are told apart by their texts. -/
theorem PathLaws.pathText_inj {u u' : υ} {after after' : List String}
    (here : paths.path? u = some after) (there : paths.path? u' = some after')
    (is_path : IsPath after) (is_path' : IsPath after') :
    paths.pathText u = paths.pathText u' ↔ after = after' := by
  rw [paths.text here, paths.text there, UrlPath.render_inj is_path.free is_path'.free]

/-- Requests are asked below an endpoint of the web, and nowhere twice, whatever the library. -/
theorem PathLaws.asked (parsed : lib.parse endpoint = .ok base) (web : paths.isWeb base) :
    ∃ path, paths.path? base = some path ∧
      AskedBelow paths endpoint base (dropEmptyEnd path) := by
  obtain ⟨path, known, is_path⟩ := paths.parsed parsed web
  have full := @urlBelow_named υ lib paths endpoint base path parsed web known is_path
  have located := @path_of_urlBelow υ lib paths endpoint base path parsed web known is_path
  have exactly := @path_of_named υ lib paths endpoint base path parsed web known is_path
  refine ⟨path, known, {
    asked := fun c m r => url_eq_urlBelow
    refused := fun m r e => ?_
    built := fun m r ns named steady =>
      urlBelow_eq_ok paths parsed named (paths.steady web known is_path steady)
    whole := fun m r ns named own shown => ?_
    apart := fun m r r' ns ns' u u' named named' own made made' => ?_
    no_list := fun r r' ns u u' named own shown made made' => ?_ }⟩
  · rw [urlBelow_eq_error paths parsed web known is_path, names_eq_error]
  · obtain ⟨rest, rfl, _⟩ := names_eq_ok named
    rw [full named own, Url.joined_whole shown]
  · obtain ⟨own, own'⟩ := List.forall_mem_append.mp own
    obtain ⟨after, here, one, _⟩ := located named made
    obtain ⟨after', there, other, _⟩ := located named' made'
    have sizes : (ns.map (segment true)).length = (ns'.map (segment true)).length := by
      rw [List.length_map, List.length_map, length_names named, length_names named']
    rw [paths.pathText_inj here there one other]
    rw [exactly named own made] at here
    rw [exactly named' own' made'] at there
    rw [← Option.some.inj here, ← Option.some.inj there, Url.joined_inj sizes,
      Url.map_segment_inj]
  · have listed : names .list r' = .ok [r'.account, r'.region, r'.resource] := rfl
    obtain ⟨after, here, one, _⟩ := located named made
    obtain ⟨after', there, other, few⟩ := located listed made'
    rw [Ne, paths.pathText_inj here there one other]
    rw [exactly named own made] at here
    obtain ⟨rest, rfl, count⟩ := names_eq_ok named
    have four : ((r.account :: rest).map (segment true)).length = 4 := by
      rw [List.length_map, List.length_cons, count]
      rfl
    rw [← Option.some.inj here, Url.joined_whole shown]
    refine Url.lead_append_ne (by rw [four]; decide) ?_
    rw [four]
    exact Nat.lt_of_le_of_lt few (Nat.lt_succ_self _)

end

/-- The segments of the path of a URL; none where it has no segments. -/
def segments? (u : Url) : Option (List String) :=
  match u.path with
  | .segments path => some path
  | .opaqueText _ => none

theorem segments?_eq_some {u : Url} {path : List String} :
    segments? u = some path ↔ u.path = .segments path := by
  unfold segments?
  cases u.path <;> simp

@[simp] theorem addForm_path (u : Url) (pairs : List (String × String)) :
    (u.addForm pairs).path = u.path := by
  unfold Url.addForm
  split <;> rfl

theorem extend?_of_web {u : Url} {path : List String} (web : u.isHttp = true)
    (known : segments? u = some path) (ns : List String) : u.extend? ns =
      some { u with path := .segments (extended true (dropEmptyEnd path) ns) } := by
  have special : u.isSpecial = true := (Url.special_of_isHttp web).2
  rw [Url.extend?, segments?_eq_some.mp known, special]
  rfl

/-- What is taken of a library holds of the one that clients ask with. -/
def urlPaths : PathLaws Url.library where
  isWeb u := u.isHttp = true
  path? := segments?
  pathText u := u.path.render
  withPath u path := { u with path := .segments path }
  parsed parsed web := by simpa only [segments?_eq_some] using Url.parse_isPath parsed web
  text known := by rw [segments?_eq_some.mp known]
  form u path pairs := segments?_eq_some.mpr (addForm_path _ pairs)
  extended web known is_path ns := by
    refine ⟨_, extend?_of_web web known ns, is_path.dropEmptyEnd.extended true ns, ?_⟩
    exact Url.shownSegments_extended true _ ns
  steady web known is_path _ steady := by
    rw [← Url.extended_steady is_path.dropEmptyEnd.filled steady]
    exact extend?_of_web web known _

/-- Requests are asked below an endpoint of the web, and nowhere twice. -/
theorem asked_below {endpoint : String} {base : Url} (parsed : Url.parse endpoint = .ok base)
    (web : base.isHttp = true) :
    ∃ path, base.path = .segments path ∧
      AskedBelow urlPaths endpoint base (dropEmptyEnd path) := by
  obtain ⟨path, known, below⟩ := urlPaths.asked parsed web
  exact ⟨path, segments?_eq_some.mp known, below⟩

/-- An endpoint that ends in a slash and has a query of its own. -/
def computeEndpoint : String := "https://compute.example/v1/?alt=json"

def computeBase : Url where
  scheme := "https"
  authority := some { host := .domain "compute.example" }
  path := .segments ["v1", ""]
  query := some "alt=json"

def firewall (reference : String) : Request :=
  ⟨"gcp", "compute", "prod", "west", "get_firewalls", "firewalls", [("view", .string "full")],
    some reference⟩

theorem computeEndpoint_parsed : Url.parse computeEndpoint = .ok computeBase := by decide +kernel

/-- Slashes in a reference start no segments, nor do the dots between them lead upward. -/
theorem firewall_asked :
    Url.parse computeEndpoint = .ok computeBase ∧ computeBase.isHttp = true ∧
    ∃ u u' : Url, urlBelow Url.library computeEndpoint .get (firewall "a/../b") = .ok u ∧
      urlBelow Url.library computeEndpoint .list (firewall "a/../b") = .ok u' ∧
      u.render = "https://compute.example/v1/prod/west/firewalls/a%2F..%2Fb?alt=json&view=full" ∧
      u.path.render ≠ u'.path.render := by
  have web : computeBase.isHttp = true := by decide
  obtain ⟨path, known, below⟩ := asked_below computeEndpoint_parsed web
  obtain rfl : ["v1", ""] = path := UrlPath.segments.inj known
  have own : ∀ name ∈ ["prod", "west", "firewalls", "a/../b"], Named name := by decide
  have listed : ∀ name ∈ ["prod", "west", "firewalls"], Named name := by decide
  have slash : dropEmptyEnd ["v1", ""] = [""] → kept "prod" ≠ [] := by decide
  have got := below.whole .get (firewall "a/../b") _ rfl own slash
  have all := below.whole .list (firewall "a/../b") _ rfl listed slash
  refine ⟨computeEndpoint_parsed, web, _, _, got, all, by decide +kernel, ?_⟩
  exact below.no_list _ _ _ _ _ rfl own slash got all

/-- The place above a list is asked for the list itself. -/
theorem dots_ask_list :
    ∃ u : Url, urlBelow Url.library computeEndpoint .get (firewall "..") = .ok u ∧
      urlBelow Url.library computeEndpoint .list (firewall "..") = .ok u ∧
      u.render = "https://compute.example/v1/prod/west/firewalls?alt=json&view=full" := by
  have parsed : Url.library.parse computeEndpoint = .ok computeBase := computeEndpoint_parsed
  have web : computeBase.isHttp = true := by decide
  have led := @extend?_of_web computeBase ["v1", ""] web rfl
  have got : extended true (dropEmptyEnd ["v1", ""]) ["prod", "west", "firewalls", ".."] =
      ["v1", "prod", "west", "firewalls"] := by
    decide +kernel
  have all : extended true (dropEmptyEnd ["v1", ""]) ["prod", "west", "firewalls"] =
      ["v1", "prod", "west", "firewalls"] := by
    decide +kernel
  refine ⟨askedAt urlPaths computeBase (firewall "..") ["v1", "prod", "west", "firewalls"], ?_, ?_,
    by decide +kernel⟩
  · refine urlBelow_eq_ok urlPaths parsed rfl ?_
    rw [← got]
    exact led _
  · refine urlBelow_eq_ok urlPaths parsed rfl ?_
    rw [← all]
    exact led _

end CloudAudit.Rest
