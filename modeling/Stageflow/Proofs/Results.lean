/-!
# Results

When a computation that can fail gives a value: its parts gave theirs.
-/

namespace Stageflow

variable {ε δ α β : Type}

theorem ok_bind (a : α) (f : α → Except ε β) : (Except.ok a >>= f) = f a := rfl

theorem bind_eq_ok {x : Except ε α} {f : α → Except ε β} {b : β} :
    (x >>= f) = .ok b ↔ ∃ a, x = .ok a ∧ f a = .ok b := by
  constructor
  · intro h
    cases x with
    | error e => cases h
    | ok a => exact ⟨a, rfl, h⟩
  · rintro ⟨a, rfl, h⟩
    exact h

theorem exists_bind_pure {x : Except ε α} {f : α → β} :
    (∃ b, (x >>= fun a => pure (f a)) = .ok b) ↔ ∃ a, x = .ok a := by
  cases x <;> simp [bind, Except.bind, pure, Except.pure]

theorem mapError_eq_ok {x : Except ε α} {f : ε → δ} {a : α} :
    x.mapError f = .ok a ↔ x = .ok a := by
  constructor
  · intro h
    cases x with
    | error e => cases h
    | ok b =>
      cases h
      rfl
  · rintro rfl
    rfl

theorem mapError_bind (f : ε → δ) (x : Except ε α) (g : α → Except ε β) :
    (x >>= g).mapError f = x.mapError f >>= fun a => (g a).mapError f := by
  cases x <;> rfl

theorem map_eq_ok {x : Except ε α} {f : α → β} {b : β} :
    x.map f = .ok b ↔ ∃ a, x = .ok a ∧ f a = b := by
  constructor
  · intro h
    cases x with
    | error e => cases h
    | ok a => exact ⟨a, rfl, Except.ok.inj h⟩
  · rintro ⟨a, rfl, rfl⟩
    rfl

theorem toOption_eq_some {x : Except ε α} {a : α} : x.toOption = some a ↔ x = .ok a := by
  cases x <;> simp [Except.toOption]

/-! ## Lists -/

theorem filterAuxM_eq_ok {f : α → Except ε Bool} {xs acc out : List α}
    (h : xs.filterAuxM f acc = .ok out) :
    ∃ chosen, out = chosen ++ acc ∧ (chosen = [] → ∀ x ∈ xs, f x = .ok false) := by
  induction xs generalizing acc with
  | nil =>
    cases h
    exact ⟨[], rfl, by simp⟩
  | cons x rest ih =>
    obtain ⟨picked, hx, hrest⟩ := bind_eq_ok.1 h
    obtain ⟨chosen, rfl, hnone⟩ := ih hrest
    cases picked with
    | true => exact ⟨chosen ++ [x], by simp, by simp⟩
    | false => exact ⟨chosen, rfl, fun hnil => by simpa [hx] using hnone hnil⟩

theorem filterAuxM_of_false {f : α → Except ε Bool} {xs : List α} (acc : List α)
    (h : ∀ x ∈ xs, f x = .ok false) : xs.filterAuxM f acc = .ok acc := by
  induction xs with
  | nil => rfl
  | cons x rest ih =>
    exact bind_eq_ok.2 ⟨false, h x (by simp), ih fun y hy => h y (by simp [hy])⟩

/-- A test that can fail selects nothing exactly if it is false of everything. -/
theorem filterM_eq_nil {f : α → Except ε Bool} {xs : List α} :
    xs.filterM f = .ok [] ↔ ∀ x ∈ xs, f x = .ok false := by
  constructor
  · intro h
    obtain ⟨out, hout, hnil⟩ := bind_eq_ok.1 h
    obtain ⟨chosen, rfl, hnone⟩ := filterAuxM_eq_ok hout
    exact hnone (by simpa using Except.ok.inj hnil)
  · intro h
    exact bind_eq_ok.2 ⟨[], filterAuxM_of_false [] h, rfl⟩

theorem filterAuxM_ends (acc : List α) {f : α → Except ε Bool} {xs : List α} :
    (∃ out, xs.filterAuxM f acc = .ok out) ↔ ∀ x ∈ xs, ∃ picked, f x = .ok picked := by
  induction xs generalizing acc with
  | nil => simp [pure, Except.pure]
  | cons x rest ih =>
    rw [List.forall_mem_cons]
    constructor
    · rintro ⟨_, h⟩
      obtain ⟨picked, hx, hrest⟩ := bind_eq_ok.1 h
      exact ⟨⟨picked, hx⟩, (ih _).1 ⟨_, hrest⟩⟩
    · rintro ⟨⟨picked, hx⟩, hrest⟩
      obtain ⟨out, hout⟩ := (ih _).2 hrest
      exact ⟨out, bind_eq_ok.2 ⟨picked, hx, hout⟩⟩

/-- A test that can fail goes through a list exactly if it fails of nothing there. -/
theorem filterM_ends {f : α → Except ε Bool} {xs : List α} :
    (∃ out, xs.filterM f = .ok out) ↔ ∀ x ∈ xs, ∃ picked, f x = .ok picked := by
  rw [← filterAuxM_ends []]
  exact exists_bind_pure

/-- What a test that can fail finds is one of the elements. -/
theorem mem_of_findM? {f : α → Except ε Bool} {xs : List α} {x : α}
    (h : xs.findM? f = .ok (some x)) : x ∈ xs := by
  induction xs with
  | nil => cases h
  | cons y rest ih =>
    rw [List.findM?] at h
    obtain ⟨found, -, h⟩ := bind_eq_ok.1 h
    cases found with
    | true =>
      cases h
      exact List.mem_cons_self
    | false => exact List.mem_cons_of_mem _ (ih h)

/-- A computation of each element succeeds with results of a kind exactly if each one does. -/
theorem mapM_eq_ok {f : α → Except ε β} {P : β → Prop} {xs : List α} :
    (∃ ys, xs.mapM f = .ok ys ∧ ∀ y ∈ ys, P y) ↔ ∀ x ∈ xs, ∃ y, f x = .ok y ∧ P y := by
  induction xs with
  | nil => simp [pure, Except.pure]
  | cons x rest ih =>
    simp only [List.mapM_cons, bind_eq_ok, List.forall_mem_cons, ← ih]
    constructor
    · rintro ⟨_, ⟨y, hy, ys, hys, h⟩, hP⟩
      cases h
      exact ⟨⟨y, hy, hP y (by simp)⟩, ys, hys, fun z hz => hP z (by simp [hz])⟩
    · rintro ⟨⟨y, hy, hPy⟩, ys, hys, hP⟩
      refine ⟨y :: ys, ⟨y, hy, ys, hys, rfl⟩, fun z hz => ?_⟩
      obtain rfl | hz := List.mem_cons.1 hz
      · exact hPy
      · exact hP z hz

/-- The results of a computation of each element are those of the elements. -/
theorem mem_of_mapM {f : α → Except ε β} {xs : List α} {ys : List β} (h : xs.mapM f = .ok ys)
    {y : β} : y ∈ ys ↔ ∃ x ∈ xs, f x = .ok y := by
  induction xs generalizing ys with
  | nil =>
    cases h
    simp
  | cons x rest ih =>
    simp only [List.mapM_cons, bind_eq_ok] at h
    obtain ⟨first, hfirst, others, hothers, h⟩ := h
    cases h
    simp [ih hothers, hfirst, eq_comm]

end Stageflow
