import CloudAudit.Proofs.BindingJson
import Mathlib.Data.List.Basic

set_option autoImplicit false

/- Where paths lead. A path without `[]` leads to one value at most. Each `[]` is a choice of one
element, and a path with choices leads to the list of what all of them lead to. -/
namespace CloudAudit.Binding

/-- One step to a single place. -/
def step? (b : Binding) : Step → Option Binding
  | .key name => b.key? name
  | .index n => b.index? n
  | .flatten => none

theorem walk_cons {step : Step} (single : step ≠ .flatten) (b : Binding) (rest : List Step) :
    b.walk (step :: rest) = (b.step? step).bind fun next => next.walk rest := by
  cases step with
  | key name => rw [walk, step?]; cases b.key? name <;> rfl
  | index n => rw [walk, step?]; cases b.index? n <;> rfl
  | flatten => exact absurd rfl single

/-- Where steps to single places end. -/
def follow? : Binding → List Step → Option Binding
  | b, [] => some b
  | b, step :: rest => (b.step? step).bind fun next => next.follow? rest

theorem walk_append_of_follow {front : List Step} (single : .flatten ∉ front) :
    ∀ (b : Binding) (rest : List Step),
      b.walk (front ++ rest) = (b.follow? front).bind fun next => next.walk rest := by
  induction front with
  | nil => intro b rest; rfl
  | cons step front ih =>
    intro b rest
    obtain ⟨first, later⟩ := not_or.mp (List.mem_cons.not.mp single)
    rw [List.cons_append, walk_cons (Ne.symm first), follow?]
    cases b.step? step with
    | none => rfl
    | some next => exact ih later next rest

theorem walk_eq_follow {front : List Step} (single : .flatten ∉ front) (b : Binding) :
    b.walk front = (b.follow? front).map toJson := by
  have whole := walk_append_of_follow single b []
  rw [List.append_nil] at whole
  rw [whole]
  cases b.follow? front <;> rfl

/-- Steps to single places and more steps lead through the value in between. -/
theorem walk_append {front : List Step} (single : .flatten ∉ front) (b : Binding)
    (rest : List Step) :
    b.walk (front ++ rest) = (b.walk front).bind fun v => (value v).walk rest := by
  rw [walk_append_of_follow single, walk_eq_follow single]
  cases b.follow? front with
  | none => rfl
  | some next => exact (walk_asValue rest next).symm

theorem walk_flatten_array (vs : List Json) (rest : List Step) :
    (value (.array vs)).walk (.flatten :: rest) =
      some (.array (vs.flatMap fun v => splice ((value v).walk rest))) := by
  simp only [walk, elements?, List.flatMap_map]

/-- A `[]` needs a list. -/
theorem walk_flatten_isSome (v : Json) (rest : List Step) :
    ((value v).walk (.flatten :: rest)).isSome ↔ ∃ vs, v = .array vs := by
  cases v with
  | array vs => simp [walk_flatten_array]
  | null | bool | number | string | object => simp [walk, elements?]

/-- The steps lead to `v` when the elements at the positions of `choice` are taken, one position
for each `[]`. -/
inductive Leads : Binding → List Step → List Nat → Json → Prop
  | here (b : Binding) : Leads b [] [] b.toJson
  | step {b next : Binding} {step : Step} {rest : List Step} {choice : List Nat} {v : Json} :
      b.step? step = some next → Leads next rest choice v → Leads b (step :: rest) choice v
  | element {b e : Binding} {es : List Binding} {i : Nat} {rest : List Step} {choice : List Nat}
      {v : Json} : b.elements? = some es → es[i]? = some e → Leads e rest choice v →
      Leads b (.flatten :: rest) (i :: choice) v

/-- All choices along a path and where they lead, from left to right. -/
structure Ways (b : Binding) (steps : List Step) (ways : List (List Nat × Json)) : Prop where
  ordered : ways.Pairwise fun first second => first.1 < second.1
  complete : ∀ choice v, (choice, v) ∈ ways ↔ b.Leads steps choice v

/-- The choices along a path, with where they lead. -/
def ways : Binding → List Step → List (List Nat × Json)
  | b, [] => [([], b.toJson)]
  | b, .flatten :: rest => match b.elements? with
    | some es => es.zipIdx.flatMap fun (e, i) =>
      (e.ways rest).map fun (choice, v) => (i :: choice, v)
    | none => []
  | b, step :: rest => match b.step? step with
    | some next => next.ways rest
    | none => []

theorem ways_cons {step : Step} (single : step ≠ .flatten) (b : Binding) (rest : List Step) :
    b.ways (step :: rest) = (b.step? step).elim [] fun next => next.ways rest := by
  rw [ways]
  · cases b.step? step <;> rfl
  · exact single

theorem ways_flatten {b : Binding} {es : List Binding} (list : b.elements? = some es)
    (rest : List Step) :
    b.ways (.flatten :: rest) = es.zipIdx.flatMap fun (e, i) =>
      (e.ways rest).map fun (choice, v) => (i :: choice, v) := by
  rw [ways, list]

section

variable {b : Binding} {rest : List Step} {choice : List Nat} {v : Json}

theorem leads_nil : b.Leads [] choice v ↔ choice = [] ∧ v = b.toJson := by
  constructor
  · rintro ⟨⟩
    exact ⟨rfl, rfl⟩
  · rintro ⟨rfl, rfl⟩
    exact .here b

theorem leads_cons {step : Step} (single : step ≠ .flatten) :
    b.Leads (step :: rest) choice v ↔
      ∃ next, b.step? step = some next ∧ next.Leads rest choice v := by
  constructor
  · rintro (_ | ⟨taken, leads⟩ | _)
    · exact ⟨_, taken, leads⟩
    · exact absurd rfl single
  · rintro ⟨next, taken, leads⟩
    exact .step taken leads

theorem leads_flatten : b.Leads (.flatten :: rest) choice v ↔
    ∃ es i e later, b.elements? = some es ∧ es[i]? = some e ∧ choice = i :: later ∧
      e.Leads rest later v := by
  constructor
  · rintro (_ | ⟨taken, _⟩ | ⟨list, place, leads⟩)
    · cases taken
    · exact ⟨_, _, _, _, list, place, rfl, leads⟩
  · rintro ⟨es, i, e, later, list, place, rfl, leads⟩
    exact .element list place leads

end

theorem mem_ways {steps : List Step} : ∀ {b : Binding} {choice : List Nat} {v : Json},
    (choice, v) ∈ b.ways steps ↔ b.Leads steps choice v := by
  induction steps with
  | nil =>
    intro b choice v
    rw [ways, List.mem_singleton, Prod.mk.injEq, leads_nil]
  | cons step rest ih =>
    intro b choice v
    by_cases single : step = .flatten
    · subst single
      rw [leads_flatten]
      cases list : b.elements? with
      | none => simp [ways, list]
      | some es =>
        rw [ways_flatten list]
        simp only [List.mem_flatMap, List.mem_map, Prod.exists, List.mem_zipIdx_iff_getElem?,
          Prod.mk.injEq, Option.some.injEq, ih]
        constructor
        · rintro ⟨e, i, place, later, w, leads, rfl, rfl⟩
          exact ⟨es, i, e, later, rfl, place, rfl, leads⟩
        · rintro ⟨_, i, e, later, rfl, place, rfl, leads⟩
          exact ⟨e, i, place, later, v, leads, rfl, rfl⟩
    · rw [leads_cons single, ways_cons single]
      cases b.step? step with
      | none => simp
      | some next => simp [ih]

/-- Choices are listed in the order of their positions. -/
theorem ways_ordered {steps : List Step} : ∀ b : Binding,
    (b.ways steps).Pairwise fun first second => first.1 < second.1 := by
  induction steps with
  | nil => intro b; exact List.pairwise_singleton _ _
  | cons step rest ih =>
    intro b
    by_cases single : step = .flatten
    · subst single
      cases list : b.elements? with
      | none => simp [ways, list]
      | some es =>
        have positions : es.zipIdx.Pairwise fun first second => first.2 < second.2 := by
          rw [← List.pairwise_map (f := Prod.snd) (R := (· < ·)), List.zipIdx_map_snd]
          exact List.pairwise_lt_range'
        rw [ways_flatten list, List.pairwise_flatMap]
        refine ⟨fun (e, i) _ => ?_, positions.imp fun {first second} before => ?_⟩
        · refine List.pairwise_map.mpr ((ih e).imp fun less => ?_)
          exact List.cons_lt_cons_iff.mpr (.inr ⟨rfl, less⟩)
        · intro x from_first y from_second
          obtain ⟨_, _, rfl⟩ := List.mem_map.mp from_first
          obtain ⟨_, _, rfl⟩ := List.mem_map.mp from_second
          exact List.cons_lt_cons_iff.mpr (.inl before)
    · rw [ways_cons single]
      cases b.step? step with
      | none => exact .nil
      | some next => exact ih next

/-- What is spliced into a list is what all choices lead to. -/
theorem splice_walk {steps : List Step} : ∀ b : Binding,
    splice (b.walk steps) = (b.ways steps).flatMap fun way => splice (some way.2) := by
  induction steps with
  | nil => intro b; rw [walk, ways, List.flatMap_singleton]
  | cons step rest ih =>
    intro b
    by_cases single : step = .flatten
    · subst single
      cases list : b.elements? with
      | none => simp [walk, ways, list, splice]
      | some es =>
        rw [walk, ways_flatten list, list, List.flatMap_assoc]
        simp only [List.flatMap_map, ← ih]
        calc
          es.flatMap (fun e => splice (e.walk rest)) =
              (es.zipIdx.map Prod.fst).flatMap fun e => splice (e.walk rest) := by
            rw [List.zipIdx_map_fst]
          _ = es.zipIdx.flatMap fun x => splice (x.1.walk rest) := List.flatMap_map ..
    · rw [walk_cons single, ways_cons single]
      cases b.step? step with
      | none => rfl
      | some next => exact ih next

theorem ways_ways (b : Binding) (steps : List Step) : b.Ways steps (b.ways steps) :=
  ⟨ways_ordered b, fun _ _ => mem_ways⟩

/-- Where a path leads that goes through a list at its first `[]`. -/
theorem walk_through {front : List Step} (single : .flatten ∉ front) {b : Binding}
    {vs : List Json} (list : b.walk front = some (.array vs)) (rest : List Step) :
    b.walk (front ++ .flatten :: rest) =
      some (.array (vs.flatMap fun v => splice ((value v).walk rest))) := by
  rw [walk_append single, list, Option.bind_some, walk_flatten_array]

/-- What the steps of a path do. -/
structure PathLaws (b : Binding) : Prop where
  /-- Without a `[]`, steps follow one another, and the first that fails ends all. -/
  append : ∀ front rest, .flatten ∉ front →
    b.walk (front ++ rest) = (b.walk front).bind fun v => (value v).walk rest
  /-- Up to its first `[]` a path must lead to a list; after it nothing fails. -/
  resolves : ∀ front rest, .flatten ∉ front →
    ((b.walk (front ++ .flatten :: rest)).isSome ↔ ∃ vs, b.walk front = some (.array vs))
  /-- The result lists what all choices lead to, lists spliced in once. -/
  collects : ∀ front rest, .flatten ∉ front →
    ∀ v, b.walk (front ++ .flatten :: rest) = some v →
      ∃ ways, b.Ways (front ++ .flatten :: rest) ways ∧
        v = .array (ways.flatMap fun way => splice (some way.2))
  /-- Lists one after the other give their results one after the other. -/
  concat : ∀ front rest, .flatten ∉ front → ∀ (c d : Binding) (xs ys : List Json),
    c.walk front = some (.array xs) → d.walk front = some (.array ys) →
    b.walk front = some (.array (xs ++ ys)) →
      ∃ us vs, c.walk (front ++ .flatten :: rest) = some (.array us) ∧
        d.walk (front ++ .flatten :: rest) = some (.array vs) ∧
        b.walk (front ++ .flatten :: rest) = some (.array (us ++ vs))
  /-- An element that leads nowhere is as good as absent. -/
  drops : ∀ front rest, .flatten ∉ front → ∀ (c : Binding) (xs ys : List Json) (v : Json),
    (value v).walk rest = none → c.walk front = some (.array (xs ++ ys)) →
    b.walk front = some (.array (xs ++ v :: ys)) →
      b.walk (front ++ .flatten :: rest) = c.walk (front ++ .flatten :: rest)

/-- A path leads through values step by step and lists what its choices lead to, from any
binding, a JSON value among them. -/
theorem paths_collect_choices (b : Binding) : PathLaws b where
  append front rest single := walk_append single b rest
  resolves front rest single := by
    rw [walk_append single]
    cases b.walk front with
    | none => simp
    | some v => simp [walk_flatten_isSome]
  collects front rest single v led := by
    refine ⟨_, b.ways_ways _, ?_⟩
    rw [← splice_walk, led]
    rw [walk_append single] at led
    obtain ⟨w, _, led⟩ := Option.bind_eq_some_iff.mp led
    obtain ⟨vs, rfl⟩ := (walk_flatten_isSome w rest).mp (Option.isSome_of_eq_some led)
    rw [walk_flatten_array] at led
    obtain rfl := Option.some.inj led
    rfl
  concat front rest single c d xs ys first second whole :=
    ⟨_, _, walk_through single first rest, walk_through single second rest, by
      rw [walk_through single whole rest, List.flatMap_append]⟩
  drops front rest single c xs ys v nowhere without list := by
    rw [walk_through single list rest, walk_through single without rest]
    simp only [List.flatMap_append, List.flatMap_cons, nowhere, splice, List.nil_append]

/-- Groups of rules: a list of ranges, a single one, a rule without any and a group that is no
list. -/
def sampleRules : Json := .object [("groups", .array
  [.array [.object [("ranges", .array [.string "a", .string "b"])], .object []], .null,
    .array [.object [("ranges", .string "c")]]])]

/-- The ranges of all rules of all groups are one list. -/
theorem ranges_listed :
    PathLaws (.value sampleRules) ∧
    (value sampleRules).walk [.key "groups", .flatten, .flatten, .key "ranges"] =
      some (.array [.string "a", .string "b", .string "c"]) ∧
    ∃ ways, (value sampleRules).Ways [.key "groups", .flatten, .flatten, .key "ranges"] ways ∧
      .array [.string "a", .string "b", .string "c"] =
        Json.array (ways.flatMap fun way => splice (some way.2)) := by
  have laws := paths_collect_choices (.value sampleRules)
  have single : Step.flatten ∉ [Step.key "groups"] := by decide
  exact ⟨laws, rfl, laws.collects [.key "groups"] [.flatten, .key "ranges"] single _ rfl⟩

end CloudAudit.Binding
