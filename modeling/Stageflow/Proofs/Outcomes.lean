import Stageflow.Proofs.Keeps

/-!
# Outcomes of computations

A computation that hangs is cut off wherever it is, so what holds of the state that it leaves may be
less than what holds after a fault. `Ends I H action s Q` says of one run that it gives a value and
a state of which `Q` holds, ends with a fault in a state of which `I` holds, or hangs in a state of
which `H` holds. `Stays I H action` says of all runs from states of which `I` holds that they end in
such states, unless they hang.
-/

namespace Stageflow.Run

variable {α β : Type} {I J H : System → Prop} {s : System}

/-- From a state, a computation gives a value and a state of which `Q` holds, or ends early: with a
fault in a state of which `I` holds, or hanging in one of which `H` holds. -/
def Ends (I H : System → Prop) (action : Run α) (s : System) (Q : α → System → Prop) : Prop :=
  match action s with
  | .ok a t => Q a t
  | .error (.raised _) t => I t
  | .error .hung t => H t

/-- Unless a computation hangs, a property of the state still holds. -/
def Stays (I H : System → Prop) (action : Run α) : Prop :=
  ∀ s, I s → Ends I H action s fun _ t => I t

/-! ## One run -/

theorem Ends.mono {action : Run α} {Q R : α → System → Prop} (h : Ends I H action s Q)
    (hQR : ∀ a t, Q a t → R a t) : Ends I H action s R := by
  unfold Ends at h ⊢
  split <;> simp_all

/-- What a run that gives a value ends in is what it was run to. -/
theorem Ends.ran {action : Run α} {Q : α → System → Prop} (h : Ends I H action s Q) :
    Ends I H action s fun a t => action s = .ok a t ∧ Q a t := by
  unfold Ends at h ⊢
  split <;> simp_all

theorem Ends.weaken {action : Run α} {Q : α → System → Prop} (h : Ends I H action s Q)
    (hIJ : ∀ t, I t → J t) : Ends J H action s Q := by
  unfold Ends at h ⊢
  split <;> simp_all

/-- What is known of a run that hangs may be less. -/
theorem Ends.hanging {K : System → Prop} {action : Run α} {Q : α → System → Prop}
    (h : Ends I H action s Q) (hHK : ∀ t, H t → K t) : Ends I K action s Q := by
  unfold Ends at h ⊢
  split <;> simp_all

/-- What a run ends in, and what it leads to. -/
theorem Ends.and_leads {action : Run α} {Q R : α → System → Prop} (h : Ends I H action s Q)
    (hJ : Leads J action s R) : Ends I H action s fun a t => Q a t ∧ R a t := by
  unfold Ends at h ⊢
  unfold Leads at hJ
  split <;> simp_all

/-- Two things that a run ends in. -/
theorem Ends.and {K : System → Prop} {action : Run α} {Q R : α → System → Prop}
    (h : Ends I H action s Q) (h' : Ends J K action s R) :
    Ends (fun t => I t ∧ J t) (fun t => H t ∧ K t) action s fun a t => Q a t ∧ R a t := by
  unfold Ends at h h' ⊢
  split <;> simp_all

/-- What raises nothing, and does not hang, gives a value. -/
theorem Ends.exists_ok {action : Run α} {Q R : α → System → Prop}
    (h : Ends (fun _ => False) H action s Q) (returns : Ends I (fun _ => False) action s R) :
    ∃ a t, action s = .ok a t ∧ Q a t ∧ R a t := by
  unfold Ends at h returns
  cases hrun : action s with
  | ok a t =>
    rw [hrun] at h returns
    exact ⟨a, t, rfl, h, returns⟩
  | error halt t =>
    rw [hrun] at h returns
    cases halt with
    | raised fault => exact h.elim
    | hung => exact returns.elim

theorem ends_anyhow (action : Run α) (s : System) :
    Ends (fun _ => True) (fun _ => True) action s fun _ _ => True := by
  unfold Ends
  split <;> trivial

@[simp] theorem ends_pure {a : α} {Q : α → System → Prop} : Ends I H (pure a) s Q ↔ Q a s := Iff.rfl

@[simp] theorem ends_get {Q : System → System → Prop} : Ends I H get s Q ↔ Q s s := Iff.rfl

@[simp] theorem ends_set {t : System} {Q : PUnit → System → Prop} :
    Ends I H (set t : Run PUnit) s Q ↔ Q ⟨⟩ t := Iff.rfl

@[simp] theorem ends_modify {change : System → System} {Q : PUnit → System → Prop} :
    Ends I H (modify change : Run PUnit) s Q ↔ Q ⟨⟩ (change s) := Iff.rfl

@[simp] theorem ends_note {notice : Notice} {Q : Unit → System → Prop} :
    Ends I H (note notice) s Q ↔ Q () { s with journal := notice :: s.journal } := Iff.rfl

@[simp] theorem ends_raise {fault : Fault} {Q : α → System → Prop} :
    Ends I H (raise fault : Run α) s Q ↔ I s := Iff.rfl

@[simp] theorem ends_hung {Q : α → System → Prop} :
    Ends I H (throw .hung : Run α) s Q ↔ H s := Iff.rfl

@[simp] theorem ends_bind {action : Run α} {next : α → Run β} {Q : β → System → Prop} :
    Ends I H (action >>= next) s Q ↔ Ends I H action s fun a t => Ends I H (next a) t Q := by
  unfold Ends
  change (match (EStateM.bind action next) s with
    | .ok a t => Q a t
    | .error (.raised _) t => I t
    | .error .hung t => H t) ↔ _
  unfold EStateM.bind
  cases action s with
  | ok a t => rfl
  | error halt t => cases halt <;> rfl

@[simp] theorem ends_map {f : α → β} {action : Run α} {Q : β → System → Prop} :
    Ends I H (f <$> action) s Q ↔ Ends I H action s fun a t => Q (f a) t := by
  rw [← bind_pure_comp, ends_bind]
  rfl

theorem ends_ofExcept {x : Except Fault α} {Q : α → System → Prop} :
    Ends I H (ofExcept x) s Q ↔ match x with | .ok a => Q a s | .error _ => I s := by
  cases x <;> rfl

theorem ends_ofReading {x : Except Defect α} {Q : α → System → Prop} :
    Ends I H (ofReading x) s Q ↔ match x with | .ok a => Q a s | .error _ => I s := by
  cases x <;> rfl

/-- An attempt ends with a value or a fault, or hangs; it raises nothing itself. -/
theorem Ends.attempt {action : Run α} {Q : Except Fault α → System → Prop}
    (h : Ends I H action s fun a t => Q (.ok a) t) (hf : ∀ fault t, I t → Q (.error fault) t) :
    Ends J H (Run.attempt action) s Q := by
  unfold Ends at h ⊢
  rw [attempt_apply]
  cases hs : action s with
  | ok a t => simpa [hs] using h
  | error halt t =>
    simp only [hs] at h
    cases halt with
    | raised fault => exact hf fault t h
    | hung => exact h

/-- What is caught is how a computation ends without a value, also if it hangs. -/
theorem Ends.tryCatch {K : System → Prop} {action : Run α} {handle : Halt → Run α}
    {Q : α → System → Prop} (h : Ends I H action s Q)
    (hraised : ∀ fault t, I t → Ends J K (handle (.raised fault)) t Q)
    (hhung : ∀ t, H t → Ends J K (handle .hung) t Q) :
    Ends J K (MonadExcept.tryCatch action handle) s Q := by
  unfold Ends at h
  unfold Ends
  change match (EStateM.tryCatch action handle) s with
    | .ok a t => Q a t
    | .error (.raised _) t => J t
    | .error .hung t => K t
  unfold EStateM.tryCatch
  cases ha : action s with
  | ok a t => simpa [ha] using h
  | error halt t =>
    simp only [ha] at h
    cases halt with
    | raised fault => exact hraised fault t h
    | hung => exact hhung t h

/-- What is done last is done also if the computation hangs. -/
theorem Ends.tryFinally_note {action : Run α} {notice : Notice} {Q : α → System → Prop}
    (h : Ends I H action s fun a t => Q a { t with journal := notice :: t.journal })
    (hI : ∀ t, I t → I { t with journal := notice :: t.journal })
    (hH : ∀ t, H t → H { t with journal := notice :: t.journal }) :
    Ends I H (tryFinally action (note notice)) s Q := by
  unfold Ends at h ⊢
  rw [tryFinally_apply]
  cases haction : action s with
  | ok a t =>
    rw [haction] at h
    exact h
  | error halt t =>
    rw [haction] at h
    cases halt with
    | raised fault => exact hI t h
    | hung => exact hH t h

theorem ends_forM_cons {f : α → Run PUnit} {x : α} {xs : List α} {Q : PUnit → System → Prop} :
    Ends I H ((x :: xs).forM f) s Q ↔
      Ends I H (f x) s fun _ t => Ends I H (xs.forM f) t Q := ends_bind

theorem ends_filterMapM_cons {f : α → Run (Option β)} {x : α} {xs : List α}
    {Q : List β → System → Prop} :
    Ends I H ((x :: xs).filterMapM f) s Q ↔
      Ends I H (f x) s fun y t =>
        Ends I H (xs.filterMapM f) t fun ys t => Q (y.toList ++ ys) t := by
  rw [List.filterMapM_cons, ends_bind]
  refine Eq.to_iff (congrArg _ (funext fun y => funext fun t => ?_))
  cases y <;> simp

/-- What is left of a run however it ends, where what hangs is taken back. -/
theorem Ends.after {action : Run α} (h : Ends I H action s fun _ t => I t) (hH : ∀ t, H t → I t) :
    I (action.after s) := by
  unfold Ends at h
  unfold Run.after
  split <;> simp_all
  rename_i halt _ _
  cases halt <;> simp_all

/-! ## All runs -/

namespace Stays

protected theorem pure {a : α} : Stays I H (pure a) := fun _ hs => hs

protected theorem get : Stays I H get := fun _ hs => hs

protected theorem raise {fault : Fault} : Stays I H (raise fault : Run α) := fun _ hs => hs

protected theorem ofExcept {x : Except Fault α} : Stays I H (ofExcept x) := by
  intro s hs
  cases x <;> exact hs

theorem ofExcept_bind {x : Except Fault α} {next : α → Run β}
    (hn : ∀ a, x = .ok a → Stays I H (next a)) : Stays I H (Run.ofExcept x >>= next) := by
  cases x with
  | ok a => exact hn a rfl
  | error fault => exact Stays.raise

protected theorem ofReading {x : Except Defect α} : Stays I H (ofReading x) := by
  intro s hs
  cases x <;> exact hs

protected theorem modify {change : System → System} (h : ∀ s, I s → I (change s)) :
    Stays I H (modify change : Run PUnit) := fun s hs => h s hs

protected theorem bind {action : Run α} {next : α → Run β} (h : Stays I H action)
    (hn : ∀ a, Stays I H (next a)) : Stays I H (action >>= next) := by
  intro s hs
  exact ends_bind.2 ((h s hs).mono fun a t ht => hn a t ht)

/-- What is known of the state that is read may be used for what comes next. -/
theorem get_bind {next : System → Run β} (hn : ∀ s, I s → Ends I H (next s) s fun _ t => I t) :
    Stays I H ((MonadState.get : Run System) >>= next) := by
  intro s hs
  exact ends_bind.2 (hn s hs)

protected theorem ite {c : Prop} [Decidable c] {action other : Run α} (h : Stays I H action)
    (ho : Stays I H other) : Stays I H (if c then action else other) := by
  split <;> assumption

protected theorem attempt {action : Run α} (h : Stays I H action) :
    Stays I H (Run.attempt action) := fun s hs => (h s hs).attempt fun _ _ ht => ht

theorem tryFinally_note {action : Run α} {notice : Notice} (h : Stays I H action)
    (hI : ∀ t, I t → I { t with journal := notice :: t.journal })
    (hH : ∀ t, H t → H { t with journal := notice :: t.journal }) :
    Stays I H (tryFinally action (note notice)) :=
  fun s hs => ((h s hs).mono fun _ t ht => hI t ht).tryFinally_note hI hH

theorem forM {f : α → Run PUnit} {xs : List α} (h : ∀ x ∈ xs, Stays I H (f x)) :
    Stays I H (xs.forM f) := by
  induction xs with
  | nil => exact .pure
  | cons x xs ih => exact .bind (h x (by simp)) fun _ => ih fun y hy => h y (by simp [hy])

theorem mapM {f : α → Run β} {xs : List α} (h : ∀ x ∈ xs, Stays I H (f x)) :
    Stays I H (xs.mapM f) := by
  induction xs with
  | nil => exact .pure
  | cons x xs ih =>
    rw [List.mapM_cons]
    exact .bind (h x (by simp)) fun _ => .bind (ih fun y hy => h y (by simp [hy])) fun _ => .pure

theorem filterMapM {f : α → Run (Option β)} {xs : List α} (h : ∀ x ∈ xs, Stays I H (f x)) :
    Stays I H (xs.filterMapM f) := by
  induction xs with
  | nil => exact .pure
  | cons x xs ih =>
    intro s hs
    exact ends_filterMapM_cons.2
      ((h x (by simp) s hs).mono fun _ t ht => ih (fun y hy => h y (by simp [hy])) t ht)

end Stays

end Stageflow.Run
