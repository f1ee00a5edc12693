import Stageflow.Proofs.Applied
import Stageflow.Proofs.Evolution.Moves
import Stageflow.Proofs.Results
import Stageflow.System.Fleet

/-!
# Requests as they are planned

A request comes to what it plans: served without a break, it ends as the computation it asks for
does, and leaves the same behind but for notices. What is planned is the loaded item changed in
place, or moved as was decided.

## Main statements

* `Request.ending_perform` — a request that is served without a break.
* `Fleet.items_load_save` — a request that loads and saves while no other is between its turns.
-/

namespace Stageflow

namespace Run

variable {α β : Type} {s : System}

/-- How a computation ends and what it leaves behind, but for its value and what it notes. -/
def ending (action : Run α) (s : System) : Option Halt × System :=
  match action s with
  | .ok _ t => (none, { t with journal := [] })
  | .error halt t => (some halt, { t with journal := [] })

theorem ending_bind (action : Run α) (next : α → Run β) (s : System) :
    ending (action >>= next) s =
      match action s with
      | .ok a t => ending (next a) t
      | .error halt t => (some halt, { t with journal := [] }) := by
  rw [ending, bind_apply]
  cases action s <;> rfl

/-- What comes after a computation does not show where it only notes something. -/
theorem ending_bind_quiet {next : α → Run β}
    (quiet : ∀ a t, ending (next a) t = (none, { t with journal := [] })) (action : Run α)
    (s : System) : ending (action >>= next) s = ending action s := by
  rw [ending_bind, ending]
  cases action s with
  | ok a t => exact quiet a t
  | error halt t => rfl

theorem ending_get_bind (next : System → Run α) (s : System) :
    ending ((get : Run System) >>= next) s = ending (next s) s := rfl

theorem ending_ofExcept_bind (x : Except Fault α) (next : α → Run β) (s : System) :
    ending (ofExcept x >>= next) s =
      match x with
      | .ok a => ending (next a) s
      | .error fault => (some (.raised fault), { s with journal := [] }) := by
  cases x <;> rfl

theorem ending_workflowOf_bind (item : Item) (next : Workflow → Run α) (s : System) :
    ending (workflowOf item >>= next) s =
      match s.registry.version item.team item.workflowVersion with
      | .ok w => ending (next w) s
      | .error fault => (some (.raised fault), { s with journal := [] }) := by
  rw [ending, workflowOf_bind_apply]
  cases s.registry.version item.team item.workflowVersion <;> rfl

theorem ending_underLock (id : String) (action : Run α) (s : System) :
    ending (underLock id action) s =
      if s.settings.waitsTooLong then (some (.raised .waitTooLong), { s with journal := [] })
      else if id ∈ s.held then (some (.raised (.busy id)), { s with journal := [] })
      else
        match ending action { s with held := id :: s.held } with
        | (some .hung, t) => (some .hung, t)
        | (halt, t) => (halt, { t with held := t.held.erase id }) := by
  unfold ending
  rw [underLock_apply]
  by_cases hwait : s.settings.waitsTooLong
  · simp [hwait]
  by_cases hheld : id ∈ s.held
  · simp [hwait, hheld]
  simp only [hwait, hheld, Bool.false_eq_true, if_false]
  cases action { s with held := id :: s.held } with
  | ok a t => rfl
  | error halt t => cases halt <;> rfl

theorem ending_loadItem_bind {next : Item → Run α} {next' : Item → Run β} {id : String}
    (h : ∀ item t, ending (next item) t = ending (next' item) t) (s : System) :
    ending (loadItem id >>= next) s = ending (loadItem id >>= next') s := by
  rw [ending_bind, ending_bind]
  cases loadItem id s with
  | ok item t => exact h item t
  | error halt t => rfl

/-- A write ends as it does without the notices before it. -/
theorem ending_writeItem_journal (item : Item) (expected : Int) (s : System)
    (journal : List Notice) :
    ending (writeItem item expected) { s with journal } = ending (writeItem item expected) s := by
  simp only [ending, writeItem_apply]
  cases s.items.get? item.id with
  | none => rfl
  | some current =>
    by_cases hversion : current.version = expected
    · simp [hversion]
    · simp [hversion]

/-- What a computation leaves of the items can be read off its ending. -/
theorem items_after {α : Type} (action : Run α) (s : System) :
    (action.after s).items = (ending action s).2.items := by
  unfold after ending
  cases action s <;> rfl

end Run

namespace Request

open Run

variable {request : Request} {registry : Registry} {now : Instant} {loaded updated : Item}

/-- What settling comes to, by what is planned. -/
theorem ending_settle (request : Request) (loaded : Item) (s : System) :
    ending (request.settle loaded) s =
      match request.plan s.registry s.clock loaded with
      | .ok (some updated) => ending (writeItem updated loaded.version) s
      | .ok none => (none, { s with journal := [] })
      | .error fault => (some (.raised fault), { s with journal := [] }) := by
  unfold settle
  rw [ending_get_bind, ending_ofExcept_bind]
  cases request.plan s.registry s.clock loaded with
  | error fault => rfl
  | ok planned =>
    cases planned with
    | none => rfl
    | some updated => exact ending_bind_quiet (fun _ _ => rfl) _ s

/-- A request that is served without a break ends as the computation it asks for does. -/
theorem ending_perform (request : Request) (s : System) :
    ending request.perform s = ending request.serve s := by
  have under {α : Type} {id : String} {rest : Item → Run α} (hid : request.item = id)
      (h : ∀ item t, ending (rest item) t = ending (request.settle item) t) :
      ending (do let _ ← underLock id (do rest (← loadItem id))) s = ending request.serve s := by
    subst hid
    rw [ending_bind_quiet (fun _ _ => rfl), serve, ending_underLock, ending_underLock,
      ending_loadItem_bind h]
  cases request with
  | move id target actor =>
    refine under rfl fun item t => ?_
    rw [ending_settle, ending_workflowOf_bind, plan]
    cases t.registry.version item.team item.workflowVersion with
    | error fault => rfl
    | ok w =>
      simp only [ending_ofExcept_bind, ok_bind]
      cases w.decide item target with
      | error fault => rfl
      | ok move =>
        simp only [ending_get_bind, ok_bind]
        exact ending_bind_quiet (fun _ _ => rfl) _ t
  | signOff id stage role approver =>
    refine under rfl fun item t => ?_
    rw [ending_settle, ending_workflowOf_bind, plan]
    cases t.registry.version item.team item.workflowVersion with
    | error fault => rfl
    | ok w =>
      simp only [ending_get_bind, ending_ofExcept_bind, ok_bind]
      cases w.signOff item stage role approver t.clock with
      | error fault => rfl
      | ok signed =>
        cases signed with
        | none => rfl
        | some signed => exact ending_bind_quiet (fun _ _ => rfl) _ t
  | setCriterion id criterion satisfied =>
    refine under rfl fun item t => ?_
    rw [ending_settle, ending_get_bind, plan]
    cases item.setCriterion criterion satisfied t.clock <;> rfl
  | migrate id version =>
    refine under rfl fun item t => ?_
    rw [ending_settle, ending_get_bind, plan]
    refine (ending_ofExcept_bind (wanted t.registry item.team version) _ t).trans ?_
    cases wanted t.registry item.team version with
    | error fault => rfl
    | ok w =>
      simp only [ending_get_bind, ending_ofExcept_bind, ok_bind]
      cases w.rebind item t.clock with
      | error fault => rfl
      | ok rebound =>
        cases rebound with
        | none => rfl
        | some rebound =>
          simp only
          split
          · rename_i level _ _
            exact ending_writeItem_journal rebound item.version t
              (.levelCleared id level w.version :: t.journal)
          · rfl

/-- What a request plans is the loaded item where it is, or moved as was decided. -/
theorem plan_ok (h : request.plan registry now loaded = .ok (some updated)) :
    updated.id = loaded.id ∧
      (updated.status = loaded.status ∧ updated.history = loaded.history ∨
        ∃ id target actor w move, request = .move id target actor ∧
          registry.version loaded.team loaded.workflowVersion = .ok w ∧
          w.decide loaded target = .ok move ∧
          updated = loaded.moveTo move.route.target move.target.id now) := by
  cases request with
  | move id target actor =>
    obtain ⟨w, hw, h⟩ := bind_eq_ok.1 h
    obtain ⟨move, hmove, h⟩ := bind_eq_ok.1 h
    cases h
    exact ⟨rfl, .inr ⟨id, target, actor, w, move, rfl, hw, hmove, rfl⟩⟩
  | signOff id stage role approver =>
    obtain ⟨w, -, h⟩ := bind_eq_ok.1 h
    have amends := amends_signOff h
    exact ⟨amends.id, .inl ⟨amends.status, amends.history⟩⟩
  | setCriterion id criterion satisfied =>
    simp only [plan, Item.setCriterion] at h
    split at h
    · cases h
    · cases h
      exact ⟨rfl, .inl ⟨rfl, rfl⟩⟩
  | migrate id version =>
    obtain ⟨w, -, h⟩ := bind_eq_ok.1 h
    have rebinds := rebinds_rebind h
    exact ⟨rebinds.id, .inl ⟨rebinds.status, rebinds.history⟩⟩

end Request

namespace Fleet

open Run

variable {fleet : Fleet}

/-- A load reads the item under the lock, unless the wait for it is refused. -/
theorem turn_load (alone : fleet.flights = []) (scene : System) (engine : Nat)
    (request : Request) :
    fleet.turn (.load scene engine request) =
      if scene.settings.waitsTooLong then fleet
      else
        match fleet.items.get? request.item with
        | none => fleet
        | some loaded => { fleet with flights := [⟨engine, request, loaded⟩] } := by
  have hheld : (fleet.engine scene engine).held = [] := by simp [Fleet.engine, locks, alone]
  have hitems : (fleet.engine scene engine).items = fleet.items := rfl
  have hwaits : (fleet.engine scene engine).settings = scene.settings := rfl
  rw [turn, underLock_apply, hheld, hwaits]
  by_cases hwait : scene.settings.waitsTooLong
  · simp only [hwait, if_true]
  · simp only [hwait, Bool.false_eq_true, if_false, List.not_mem_nil, loadItem_apply, hitems]
    cases fleet.items.get? request.item <;> simp [alone]

/-- A request that loads and saves while no other is between its turns does to the items what the
computation does that it asks for. -/
theorem items_load_save (alone : fleet.flights = []) (scene : System) (engine : Nat)
    (request : Request) :
    ((fleet.turn (.load scene engine request)).turn (.save scene 0)).items =
      (request.perform.after (fleet.engine scene engine)).items := by
  have hheld : (fleet.engine scene engine).held = [] := by simp [Fleet.engine, locks, alone]
  have hitems : (fleet.engine scene engine).items = fleet.items := rfl
  rw [items_after, Request.ending_perform, Request.serve, ending_underLock, turn_load alone, hheld]
  by_cases hwait : scene.settings.waitsTooLong
  · have hwait' : (fleet.engine scene engine).settings.waitsTooLong := hwait
    simp only [hwait, hwait', if_true, turn, alone, List.getElem?_nil, hitems]
  have hwait' : ¬(fleet.engine scene engine).settings.waitsTooLong := hwait
  simp only [hwait, hwait', Bool.false_eq_true, if_false, List.not_mem_nil]
  cases hitem : fleet.items.get? request.item with
  | none =>
    have hload : loadItem request.item { fleet.engine scene engine with held := [request.item] } =
        .error (.raised (.itemMissing request.item))
          { fleet.engine scene engine with held := [request.item] } := by
      rw [loadItem_apply]
      simp only [hitems, hitem]
    rw [ending_bind, hload]
    simp only [turn, alone, List.getElem?_nil, hitems]
  | some loaded =>
    have hload : loadItem request.item { fleet.engine scene engine with held := [request.item] } =
        .ok loaded { fleet.engine scene engine with held := [request.item] } := by
      rw [loadItem_apply]
      simp only [hitems, hitem]
      rfl
    have hengine : ({ fleet with flights := [⟨engine, request, loaded⟩] } : Fleet).engine scene
        engine = { fleet.engine scene engine with held := [request.item] } := by
      simp [Fleet.engine, locks]
    rw [ending_bind, hload]
    simp only [turn, List.getElem?_cons_zero, land, hengine]
    unfold ending
    cases request.settle loaded { fleet.engine scene engine with held := [request.item] } with
    | ok saved t => rfl
    | error halt t => cases halt <;> rfl

end Fleet

end Stageflow
