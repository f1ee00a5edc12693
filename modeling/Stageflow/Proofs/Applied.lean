import Stageflow.Proofs.Keeps
import Stageflow.System.Moves

/-!
# Computations from a state

What the computations that others are made of come to, from one state.
-/

namespace Stageflow.Run

variable {α β : Type} {s : System}

theorem bind_apply (action : Run α) (next : α → Run β) (s : System) :
    (action >>= next) s =
      match action s with
      | .ok a t => next a t
      | .error halt t => .error halt t := by
  change EStateM.bind action next s = _
  unfold EStateM.bind
  cases action s <;> rfl

/-- What comes to a value, does so step by step. -/
theorem bind_apply_eq_ok {action : Run α} {next : α → Run β} {s t : System} {b : β} :
    (action >>= next) s = .ok b t ↔ ∃ a u, action s = .ok a u ∧ next a u = .ok b t := by
  rw [bind_apply]
  cases action s <;> simp [and_assoc]

theorem map_apply (f : α → β) (action : Run α) (s : System) :
    (f <$> action) s =
      match action s with
      | .ok a t => .ok (f a) t
      | .error halt t => .error halt t := by
  rw [← bind_pure_comp, bind_apply]
  cases action s <;> rfl

theorem forM_cons_apply (f : α → Run PUnit) (x : α) (xs : List α) (s : System) :
    (x :: xs).forM f s =
      match f x s with
      | .ok _ t => xs.forM f t
      | .error halt t => .error halt t := by
  change (f x >>= fun _ => xs.forM f) s = _
  rw [bind_apply]
  cases f x s <;> rfl

theorem get_bind_apply (next : System → Run β) (s : System) :
    ((get : Run System) >>= next) s = next s s := rfl

theorem set_bind_apply (t : System) (next : PUnit → Run β) (s : System) :
    ((set t : Run PUnit) >>= next) s = next ⟨⟩ t := rfl

theorem ofExcept_apply (x : Except Fault α) (s : System) :
    ofExcept x s =
      match x with
      | .ok a => .ok a s
      | .error fault => .error (.raised fault) s := by
  cases x <;> rfl

theorem ofExcept_bind_apply (x : Except Fault α) (next : α → Run β) (s : System) :
    (ofExcept x >>= next) s =
      match x with
      | .ok a => next a s
      | .error fault => .error (.raised fault) s := by
  cases x <;> rfl

theorem loadItem_apply (id : String) (s : System) :
    loadItem id s =
      match s.items.get? id with
      | some item => .ok item (overtake s id item)
      | none => .error (.raised (.itemMissing id)) s := by
  unfold loadItem Items.load
  rw [get_bind_apply]
  cases s.items.get? id <;> rfl

theorem acquire_apply (id : String) (s : System) :
    acquire id s =
      if s.settings.waitsTooLong then .error (.raised .waitTooLong) s
      else if id ∈ s.held then .error (.raised (.busy id)) s
      else .ok () { s with held := id :: s.held } := by
  unfold acquire
  rw [get_bind_apply]
  split
  · rfl
  · split <;> rfl

theorem underLock_apply (id : String) (action : Run α) (s : System) :
    underLock id action s =
      if s.settings.waitsTooLong then .error (.raised .waitTooLong) s
      else if id ∈ s.held then .error (.raised (.busy id)) s
      else
        match action { s with held := id :: s.held } with
        | .ok a t => .ok a { t with held := t.held.erase id }
        | .error (.raised fault) t => .error (.raised fault) { t with held := t.held.erase id }
        | .error .hung t => .error .hung t := by
  unfold underLock release
  rw [bind_apply, acquire_apply]
  by_cases hwait : s.settings.waitsTooLong
  · simp only [hwait, if_true]
  by_cases hheld : id ∈ s.held
  · simp only [hwait, hheld, Bool.false_eq_true, if_false, if_true]
  simp only [hwait, hheld, Bool.false_eq_true, if_false]
  rw [bind_apply, attempt_apply]
  cases action { s with held := id :: s.held } with
  | ok a t => rfl
  | error halt t => cases halt <;> rfl

/-- What a computation under a lock gives, it gives by itself once the lock is held. -/
theorem underLock_eq_ok {id : String} {action : Run α} {s t : System} {a : α}
    (h : underLock id action s = .ok a t) :
    ∃ u, action { s with held := id :: s.held } = .ok a u ∧
      t = { u with held := u.held.erase id } := by
  rw [underLock_apply] at h
  split at h
  · cases h
  split at h
  · cases h
  split at h
  · rename_i u haction
    cases h
    exact ⟨u, haction, rfl⟩
  · cases h
  · cases h

theorem workflowOf_bind_apply (item : Item) (next : Workflow → Run β) (s : System) :
    (workflowOf item >>= next) s =
      match s.registry.version item.team item.workflowVersion with
      | .ok w => next w s
      | .error fault => .error (.raised fault) s := by
  unfold workflowOf
  rw [bind_apply, get_bind_apply, ofExcept_apply]
  cases s.registry.version item.team item.workflowVersion <;> rfl

theorem writeItem_apply (item : Item) (expected : Int) (s : System) :
    writeItem item expected s =
      match s.items.get? item.id with
      | none => .error (.raised (.itemMissing item.id)) s
      | some current =>
        if current.version ≠ expected then
          .error (.raised (.overtaken item.id expected current.version)) s
        else
          let stored := { item with version := expected + 1 }
          .ok stored { s with
            items := s.items.put item.id stored, journal := .saved stored :: s.journal } := by
  unfold writeItem Items.save
  rw [get_bind_apply]
  cases s.items.get? item.id with
  | none => rfl
  | some current =>
    by_cases hversion : current.version = expected
    · simp only [ne_eq, hversion, not_true_eq_false, if_false]
      rfl
    · simp only [ne_eq, hversion, not_false_eq_true, if_true]
      rfl

/-! ## Tests of what a computation comes to -/

/-- Whether a computation succeeds, with a result and a state that pass a test. -/
def succeeds (run : Run α) (s : System) (test : α → System → Bool) : Bool :=
  match run s with
  | .ok a t => test a t
  | .error .. => false

/-- Whether a computation raises a fault, in a state that passes a test. -/
def raises (run : Run α) (s : System) (test : System → Bool) : Bool :=
  match run s with
  | .ok .. => false
  | .error (.raised _) t => test t
  | .error .hung _ => false

theorem succeeds_iff {run : Run α} {test : α → System → Bool} :
    run.succeeds s test ↔ ∃ a t, run s = .ok a t ∧ test a t := by
  unfold succeeds
  cases run s <;> simp [and_assoc]

theorem raises_iff {run : Run α} {test : System → Bool} :
    run.raises s test ↔ ∃ fault t, run s = .error (.raised fault) t ∧ test t := by
  unfold raises
  cases run s with
  | ok a t => simp
  | error halt t => cases halt <;> simp [and_assoc]

end Stageflow.Run
