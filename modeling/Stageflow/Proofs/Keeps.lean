import Stageflow.System.State

/-!
# What computations keep

`Leads I action s Q` says of one run of a computation that it gives a value and a state of which `Q`
holds, or ends early in a state of which `I` holds. `Keeps I action` says of all runs that they lead
from states of which `I` holds to such states, however they end.
-/

namespace Stageflow.Run

variable {α β : Type} {I : System → Prop} {s : System}

/-- From a state, a computation gives a value and a state of which `Q` holds, or ends early in a
state of which `I` holds. -/
def Leads (I : System → Prop) (action : Run α) (s : System) (Q : α → System → Prop) : Prop :=
  match action s with
  | .ok a t => Q a t
  | .error _ t => I t

/-- However a computation ends, a property of the state still holds. -/
def Keeps (I : System → Prop) (action : Run α) : Prop :=
  ∀ s, I s → Leads I action s fun _ t => I t

/-! ## One run -/

theorem Leads.after {action : Run α} (h : Leads I action s fun _ t => I t) :
    I (action.after s) := by
  unfold Leads at h
  unfold Run.after
  split <;> simp_all

theorem Leads.mono {action : Run α} {Q R : α → System → Prop} (h : Leads I action s Q)
    (hQR : ∀ a t, Q a t → R a t) : Leads I action s R := by
  unfold Leads at h ⊢
  split <;> simp_all

/-- Two things that a run leads to. -/
theorem Leads.and {J : System → Prop} {action : Run α} {Q R : α → System → Prop}
    (h : Leads I action s Q) (hJ : Leads J action s R) :
    Leads (fun t => I t ∧ J t) action s fun a t => Q a t ∧ R a t := by
  unfold Leads at h hJ ⊢
  split <;> simp_all

theorem Leads.weaken {J : System → Prop} {action : Run α} {Q : α → System → Prop}
    (h : Leads I action s Q) (hIJ : ∀ t, I t → J t) : Leads J action s Q := by
  unfold Leads at h ⊢
  split <;> simp_all

@[simp] theorem leads_pure {a : α} {Q : α → System → Prop} :
    Leads I (pure a) s Q ↔ Q a s := Iff.rfl

@[simp] theorem leads_get {Q : System → System → Prop} :
    Leads I get s Q ↔ Q s s := Iff.rfl

@[simp] theorem leads_set {t : System} {Q : PUnit → System → Prop} :
    Leads I (set t : Run PUnit) s Q ↔ Q ⟨⟩ t := Iff.rfl

@[simp] theorem leads_modify {change : System → System} {Q : PUnit → System → Prop} :
    Leads I (modify change : Run PUnit) s Q ↔ Q ⟨⟩ (change s) := Iff.rfl

@[simp] theorem leads_note {notice : Notice} {Q : Unit → System → Prop} :
    Leads I (note notice) s Q ↔ Q () { s with journal := notice :: s.journal } := Iff.rfl

@[simp] theorem leads_throw {halt : Halt} {Q : α → System → Prop} :
    Leads I (throw halt : Run α) s Q ↔ I s := Iff.rfl

@[simp] theorem leads_raise {fault : Fault} {Q : α → System → Prop} :
    Leads I (raise fault : Run α) s Q ↔ I s := Iff.rfl

@[simp] theorem leads_bind {action : Run α} {next : α → Run β} {Q : β → System → Prop} :
    Leads I (action >>= next) s Q ↔ Leads I action s fun a t => Leads I (next a) t Q := by
  unfold Leads
  change (match (EStateM.bind action next) s with | .ok a t => Q a t | .error _ t => I t) ↔ _
  unfold EStateM.bind
  cases action s <;> rfl

@[simp] theorem leads_map {f : α → β} {action : Run α} {Q : β → System → Prop} :
    Leads I (f <$> action) s Q ↔ Leads I action s fun a t => Q (f a) t := by
  rw [← bind_pure_comp, leads_bind]
  rfl

theorem leads_ofExcept {x : Except Fault α} {Q : α → System → Prop} :
    Leads I (ofExcept x) s Q ↔ match x with | .ok a => Q a s | .error _ => I s := by
  cases x <;> rfl

theorem leads_ofReading {x : Except Defect α} {Q : α → System → Prop} :
    Leads I (ofReading x) s Q ↔ match x with | .ok a => Q a s | .error _ => I s := by
  cases x <;> rfl

theorem attempt_apply (action : Run α) (s : System) :
    Run.attempt action s =
      match action s with
      | .ok a t => .ok (.ok a) t
      | .error (.raised fault) t => .ok (.error fault) t
      | .error .hung t => .error .hung t := by
  change EStateM.tryCatch (EStateM.bind action fun a => pure (Except.ok a)) _ s = _
  unfold EStateM.tryCatch EStateM.bind
  cases action s with
  | ok a t => rfl
  | error halt t => cases halt <;> rfl

/-- What an attempt leads to: its value, its fault in a state of which `I` holds, or no end. -/
theorem Leads.attempt {action : Run α} {Q : Except Fault α → System → Prop}
    (h : Leads I action s fun a t => Q (.ok a) t) (hf : ∀ fault t, I t → Q (.error fault) t) :
    Leads I (Run.attempt action) s Q := by
  unfold Leads at h ⊢
  rw [attempt_apply]
  cases hs : action s with
  | ok a t => simpa [hs] using h
  | error halt t =>
    simp only [hs] at h
    cases halt with
    | raised fault => exact hf fault t h
    | hung => exact h

/-- What is done last is done however a computation ends. -/
theorem tryFinally_apply (action : Run α) (last : Run β) (s : System) :
    tryFinally action last s =
      match action s with
      | .ok a t =>
        match last t with
        | .ok _ u => .ok a u
        | .error halt u => .error halt u
      | .error halt t =>
        match last t with
        | .ok _ u => .error halt u
        | .error last u => .error last u := by
  simp only [tryFinally, tryFinally', Functor.map, EStateM.map]
  cases action s with
  | ok a t => dsimp only; cases last t <;> rfl
  | error halt t => dsimp only; cases last t <;> rfl

/-- What is done last may restore what a computation does not keep. -/
theorem Leads.tryFinally {J : System → Prop} {action : Run α} {last : Run β}
    {Q : α → System → Prop} (h : Leads J action s fun a t => Leads I last t fun _ u => Q a u)
    (hJ : ∀ t, J t → Leads I last t fun _ u => I u) :
    Leads I (tryFinally action last) s Q := by
  unfold Leads at h ⊢
  rw [tryFinally_apply]
  cases hs : action s with
  | ok a t =>
    simp only [hs] at h ⊢
    cases hlast : last t <;> simp_all
  | error halt t =>
    simp only [hs] at h ⊢
    have hlast := hJ t h
    unfold Leads at hlast
    cases hl : last t <;> simp_all

theorem leads_filterMapM_cons {f : α → Run (Option β)} {x : α} {xs : List α}
    {Q : List β → System → Prop} :
    Leads I ((x :: xs).filterMapM f) s Q ↔
      Leads I (f x) s fun y t => Leads I (xs.filterMapM f) t fun ys t => Q (y.toList ++ ys) t := by
  rw [List.filterMapM_cons, leads_bind]
  refine Eq.to_iff (congrArg _ (funext fun y => funext fun t => ?_))
  cases y <;> simp

/-! ## All runs -/

theorem Keeps.after {action : Run α} (h : Keeps I action) (hs : I s) : I (action.after s) :=
  (h s hs).after

theorem Keeps.pure {a : α} : Keeps I (pure a) := fun _ hs => hs

theorem Keeps.get : Keeps I get := fun _ hs => hs

theorem Keeps.raise {fault : Fault} : Keeps I (raise fault : Run α) := fun _ hs => hs

theorem Keeps.ofExcept {x : Except Fault α} : Keeps I (ofExcept x) := by
  intro s hs
  cases x <;> exact hs

theorem Keeps.ofExcept_bind {x : Except Fault α} {next : α → Run β}
    (hn : ∀ a, x = .ok a → Keeps I (next a)) : Keeps I (Run.ofExcept x >>= next) := by
  cases x with
  | ok a => exact hn a rfl
  | error fault => exact Keeps.raise

theorem Keeps.ofReading {x : Except Defect α} : Keeps I (ofReading x) := by
  intro s hs
  cases x <;> exact hs

theorem Keeps.modify {change : System → System} (h : ∀ s, I s → I (change s)) :
    Keeps I (modify change : Run PUnit) := fun s hs => h s hs

theorem Keeps.bind {action : Run α} {next : α → Run β} (h : Keeps I action)
    (hn : ∀ a, Keeps I (next a)) : Keeps I (action >>= next) := by
  intro s hs
  exact leads_bind.2 ((h s hs).mono fun a t ht => hn a t ht)

/-- What is known of the state that is read may be used for what comes next. -/
theorem Keeps.get_bind {next : System → Run β}
    (hn : ∀ s, I s → Leads I (next s) s fun _ t => I t) :
    Keeps I ((MonadState.get : Run System) >>= next) := by
  intro s hs
  exact leads_bind.2 (hn s hs)

theorem Keeps.attempt {action : Run α} (h : Keeps I action) : Keeps I (Run.attempt action) :=
  fun s hs => (h s hs).attempt fun _ _ ht => ht

theorem Keeps.tryCatch {action : Run α} {handle : Halt → Run α} (h : Keeps I action)
    (hh : ∀ halt, Keeps I (handle halt)) : Keeps I (MonadExcept.tryCatch action handle) := by
  intro s hs
  have := h s hs
  unfold Leads at this ⊢
  change match (EStateM.tryCatch action handle) s with | .ok _ t => I t | .error _ t => I t
  unfold EStateM.tryCatch
  cases ha : action s with
  | ok a t => simpa [ha] using this
  | error halt t =>
    simp only [ha] at this
    exact hh halt t this

theorem Keeps.tryFinally {action : Run α} {last : Run β} (h : Keeps I action)
    (hl : Keeps I last) : Keeps I (tryFinally action last) :=
  fun s hs => ((h s hs).mono fun _ t ht => hl t ht).tryFinally hl

theorem Keeps.forM {f : α → Run PUnit} {xs : List α} (h : ∀ x ∈ xs, Keeps I (f x)) :
    Keeps I (xs.forM f) := by
  induction xs with
  | nil => exact Keeps.pure
  | cons x xs ih =>
    exact .bind (h x (by simp)) fun _ => ih fun y hy => h y (by simp [hy])

theorem Keeps.mapM {f : α → Run β} {xs : List α} (h : ∀ x ∈ xs, Keeps I (f x)) :
    Keeps I (xs.mapM f) := by
  induction xs with
  | nil => exact Keeps.pure
  | cons x xs ih =>
    rw [List.mapM_cons]
    exact .bind (h x (by simp)) fun _ => .bind (ih fun y hy => h y (by simp [hy])) fun _ => .pure

theorem Keeps.filterMapM {f : α → Run (Option β)} {xs : List α} (h : ∀ x ∈ xs, Keeps I (f x)) :
    Keeps I (xs.filterMapM f) := by
  induction xs with
  | nil => exact Keeps.pure
  | cons x xs ih =>
    intro s hs
    exact leads_filterMapM_cons.2
      ((h x (by simp) s hs).mono fun _ t ht => ih (fun y hy => h y (by simp [hy])) t ht)

end Stageflow.Run
