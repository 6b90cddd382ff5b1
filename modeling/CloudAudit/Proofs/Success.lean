import Mathlib.Data.List.Forall2

set_option autoImplicit false

/- Computations that can fail, read as statements of when they succeed: each step of one
succeeds, and so does each element of a traversal. One that fails does so at its first fault. -/
namespace CloudAudit

variable {α β γ ε : Type}

theorem bind_eq_ok {x : Except ε α} {f : α → Except ε β} {b : β} :
    (x >>= f) = .ok b ↔ ∃ a, x = .ok a ∧ f a = .ok b := by
  cases x with
  | error e => simp [bind, Except.bind]
  | ok a => simp [bind, Except.bind]

/-- What follows a guard is reached only where the guard does not hold. -/
theorem guard_eq_ok {refused : Prop} [Decidable refused] {e : ε} {f : PUnit → Except ε β}
    {b : β} : (if refused then Except.error e >>= f else f ⟨⟩) = .ok b ↔
      ¬refused ∧ f ⟨⟩ = .ok b := by
  by_cases h : refused
  · simp [h, bind, Except.bind]
  · simp [h]

theorem mapError_eq_ok {δ : Type} {f : ε → δ} {x : Except ε α} {a : α} :
    x.mapError f = .ok a ↔ x = .ok a := by
  cases x with
  | error e => simp [Except.mapError]
  | ok a => simp [Except.mapError]

theorem map_eq_ok {x : Except ε α} {f : α → β} {b : β} :
    x.map f = .ok b ↔ ∃ a, x = .ok a ∧ f a = b := by
  cases x with
  | error e => simp [Except.map]
  | ok a => simp [Except.map]

theorem pair_eq_ok {x : Except ε α} {y : Except ε β} {f : α → β → γ} {c : γ} :
    (x >>= fun a => y >>= fun b => pure (f a b)) = .ok c ↔
      ∃ a b, x = .ok a ∧ y = .ok b ∧ f a b = c := by
  simp only [bind_eq_ok, pure, Except.pure, Except.ok.injEq, exists_and_left]

/-- A traversal succeeds with the results of its elements, one by one. -/
theorem mapM_eq_ok {f : α → Except ε β} {xs : List α} {ys : List β} :
    xs.mapM f = .ok ys ↔ List.Forall₂ (fun x y => f x = .ok y) xs ys := by
  induction xs generalizing ys with
  | nil =>
    rw [List.mapM_nil, List.forall₂_nil_left_iff]
    exact ⟨fun accepted => (Except.ok.inj accepted).symm, fun empty => by rw [empty]; rfl⟩
  | cons x rest ih =>
    rw [List.mapM_cons, List.forall₂_cons_left_iff]
    constructor
    · intro accepted
      obtain ⟨y, here, accepted⟩ := bind_eq_ok.mp accepted
      obtain ⟨more, others, accepted⟩ := bind_eq_ok.mp accepted
      cases accepted
      exact ⟨y, more, here, ih.mp others, rfl⟩
    · rintro ⟨y, more, here, others, rfl⟩
      exact bind_eq_ok.mpr ⟨y, here, bind_eq_ok.mpr ⟨more, ih.mpr others, rfl⟩⟩

/-- Lists that are collected one after the other are collected when each of them is found. -/
theorem collect_eq_ok {f : α → Except ε (List β)} {xs : List α} {before all : List β} :
    xs.foldlM (fun found x => do
      let more ← f x
      pure (found ++ more)) before = .ok all ↔
      ∃ lists, List.Forall₂ (fun x l => f x = .ok l) xs lists ∧ all = before ++ lists.flatten := by
  induction xs generalizing before with
  | nil =>
    rw [List.foldlM_nil]
    constructor
    · intro done
      exact ⟨[], .nil, by rw [List.flatten_nil, List.append_nil]; exact (Except.ok.inj done).symm⟩
    · rintro ⟨lists, each, rfl⟩
      obtain rfl := List.forall₂_nil_left_iff.mp each
      rw [List.flatten_nil, List.append_nil]
      rfl
  | cons x rest ih =>
    rw [List.foldlM_cons, bind_eq_ok]
    constructor
    · rintro ⟨so_far, here, later⟩
      obtain ⟨more, found, same⟩ := bind_eq_ok.mp here
      obtain rfl := Except.ok.inj same
      obtain ⟨lists, each, rfl⟩ := ih.mp later
      exact ⟨more :: lists, .cons found each, by rw [List.flatten_cons, List.append_assoc]⟩
    · rintro ⟨lists, each, rfl⟩
      obtain ⟨more, others, found, later, rfl⟩ := List.forall₂_cons_left_iff.mp each
      refine ⟨before ++ more, bind_eq_ok.mpr ⟨more, found, rfl⟩, ih.mpr ⟨others, later, ?_⟩⟩
      rw [List.flatten_cons, List.append_assoc]

theorem exists_bind_ok {x : Except ε α} {f : α → Except ε β} :
    (∃ b, (x >>= f) = .ok b) ↔ ∃ a, x = .ok a ∧ ∃ b, f a = .ok b := by
  simp only [bind_eq_ok, ← exists_and_left]
  exact exists_comm

theorem exists_pure_ok (a : α) : ∃ b, (pure a : Except ε α) = .ok b := ⟨a, rfl⟩

theorem exists_map_ok {x : Except ε α} (f : α → β) :
    (∃ b, x.map f = .ok b) ↔ ∃ a, x = .ok a := by
  cases x with
  | error e => simp [Except.map]
  | ok a => simp [Except.map]

/-- Two readers one after the other succeed when each does. -/
theorem exists_pair_ok {x : Except ε α} {y : Except ε β} (f : α → β → γ) :
    (∃ c, (x >>= fun a => y >>= fun b => pure (f a b)) = .ok c) ↔
      (∃ a, x = .ok a) ∧ ∃ b, y = .ok b := by
  simp only [exists_bind_ok, exists_pure_ok, and_true, exists_and_right]

/-- Reading undoes writing. -/
def Undoes (read : β → Option α) (write : α → β) : Prop := ∀ a, read (write a) = some a

theorem Undoes.mapM {read : β → Option α} {write : α → β} (undoes : Undoes read write) (as : List α) :
    (as.map write).mapM read = some as := by
  induction as with
  | nil => rfl
  | cons a rest ih =>
    rw [List.map_cons, List.mapM_cons, undoes a, ih]
    rfl

/-- Why a computation fails. -/
def fault? : Except ε α → Option ε
  | .ok _ => none
  | .error e => some e

theorem fault?_eq_some {x : Except ε α} {e : ε} : fault? x = some e ↔ x = .error e := by
  cases x with
  | error _ => simp [fault?]
  | ok _ => simp [fault?]

theorem fault?_map (f : α → β) (x : Except ε α) : fault? (x.map f) = fault? x := by
  cases x <;> rfl

/-- Of two computations one after the other, the first fault counts. -/
theorem fault?_pair (f : α → β → γ) (x : Except ε α) (y : Except ε β) :
    fault? (x >>= fun a => y >>= fun b => pure (f a b)) = (fault? x).or (fault? y) := by
  cases x with
  | error _ => rfl
  | ok _ => cases y <;> rfl

theorem exists_forall₂ {related : α → β → Prop} {xs : List α} :
    (∃ ys, List.Forall₂ related xs ys) ↔ ∀ x ∈ xs, ∃ y, related x y := by
  induction xs with
  | nil => simp
  | cons x rest ih =>
    rw [List.forall_mem_cons, ← ih]
    constructor
    · rintro ⟨_, each⟩
      cases each with
      | cons here others => exact ⟨⟨_, here⟩, _, others⟩
    · rintro ⟨⟨y, here⟩, ys, others⟩
      exact ⟨y :: ys, .cons here others⟩

/-- What relates two lists gives each element of the second one of the first. -/
theorem exists_of_forall₂ {related : α → β → Prop} {xs : List α} {ys : List β}
    (each : List.Forall₂ related xs ys) {y : β} (member : y ∈ ys) : ∃ x ∈ xs, related x y := by
  induction each with
  | nil => cases member
  | cons here _ ih =>
    rcases List.mem_cons.mp member with rfl | later
    · exact ⟨_, List.mem_cons_self, here⟩
    · obtain ⟨x, inside, own⟩ := ih later
      exact ⟨x, List.mem_cons_of_mem _ inside, own⟩

end CloudAudit
