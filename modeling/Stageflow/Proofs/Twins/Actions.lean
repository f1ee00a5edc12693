import Stageflow.Proofs.Twins.Moves
import Stageflow.System.Actions

/-!
# Actions in step

Actions read nothing that is behind the scenes but the workflow that their item is bound to, and the
moves that they ask for are one level deeper than what they run in response to. A call that hangs
does so within an action, and an action that hangs is given up by its worker.
-/

namespace Stageflow.Run

variable {α : Type} {H : Prop} {P : α → Prop} {pact : Pact} {s₀ t₀ : System} {inside : Bool}
  {a b : Event → Run Unit} {context : ActionContext}

theorem twins_parameter {action : ActionType} {params : Fields} {name : String} :
    Twins (pact.InStep s₀ t₀ inside) H (parameter action params name)
      (parameter action params name) := by
  unfold parameter
  split
  · exact .pure trivial
  · exact .raise

theorem twins_need {c : Collaborator} :
    Twins (pact.InStep s₀ t₀ inside) H (need c) (need c) := by
  refine .read ?_
  rintro _ _ ⟨u, notices, rfl, rfl, -⟩
  simp only [System.behind]
  exact .ite (fun _ => .raise) fun _ => .pure trivial

/-- A call hangs only within an action. -/
theorem twins_call {c : Collaborator} {x y : Run α}
    (h : Twins (pact.InStep s₀ t₀ inside) (inside = true) x y) (hinside : inside = true) :
    Twins (pact.InStep s₀ t₀ inside) (inside = true) (call c x) (call c y) := by
  refine .read ?_
  rintro _ _ ⟨u, notices, rfl, rfl, -⟩
  simp only [System.behind]
  cases u.runner.conducts c with
  | missing => exact .raise
  | failing => exact .raise
  | hanging => exact .hung hinside
  | recording => exact h

theorem twins_record (change : Records → Records) :
    Twins (pact.InStep s₀ t₀ inside) H (record change) (record change) :=
  twins_modify fun u _ hu => ⟨{ u with records := change u.records }, rfl, rfl, { hu with }⟩

theorem twins_rollbackTarget {params : Fields} :
    Twins (pact.InStep s₀ t₀ inside) H (rollbackTarget context params)
      (rollbackTarget context params) := by
  unfold rollbackTarget
  split
  · refine .bind (twin_loadItem _) fun item _ => ?_
    split
    · exact .pure trivial
    · exact .raise
  · exact .pure trivial

/-- An action asks for a move one level deeper than what it runs in response to. -/
theorem twins_askMove (agrees : pact.Agrees s₀ t₀) (asks : pact.asks (context.depth + 1))
    (echoes : pact.Echoes s₀ t₀ (context.depth + 1) a b) (target : Json) :
    Twins (pact.InStep s₀ t₀ inside) (inside = true) (askMove a context target)
      (askMove b context target) :=
  .bind (twins_note asks) fun _ _ =>
    twins_moveItem agrees echoes context.item target

theorem twins_execute (agrees : pact.Agrees s₀ t₀) (asks : pact.asks (context.depth + 1))
    (echoes : pact.Echoes s₀ t₀ (context.depth + 1) a b) (hinside : inside = true)
    (action : Action) :
    Twins (pact.InStep s₀ t₀ inside) (inside = true) (execute a action context)
      (execute b action context) := by
  have hcall {c : Collaborator} {change : Records → Records} :
      Twins (pact.InStep s₀ t₀ inside) (inside = true) (call c (record change))
        (call c (record change)) := twins_call (twins_record change) hinside
  refine .bind (twin_loadItem _) fun item _ =>
    .bind (.ofExcept fun _ _ => trivial) fun params _ => ?_
  cases action.type with
  | assign =>
    exact .bind twins_need fun _ _ => .bind twins_parameter fun _ _ => .bind hcall fun _ _ =>
      .ofReading
  | createNode =>
    refine .bind twins_need fun _ _ => .bind twins_parameter fun _ _ =>
      .bind (twins_call ?_ hinside) fun _ _ => .pure trivial
    exact .bind twins_newId fun _ _ => .bind (twins_record _) fun _ _ => .pure trivial
  | createEdge =>
    exact .bind twins_need fun _ _ => .bind twins_parameter fun _ _ => .bind hcall fun _ _ =>
      .ofReading
  | createDocument =>
    exact .bind twins_need fun _ _ => .bind (.ofExcept fun _ _ => trivial) fun _ _ =>
      .bind twins_parameter fun _ _ => .bind twins_parameter fun _ _ => .bind hcall fun _ _ =>
        .ofReading
  | notify =>
    exact .bind twins_need fun _ _ => .bind twins_parameter fun _ _ => .bind hcall fun _ _ =>
      .ofReading
  | rollback =>
    exact .bind twins_rollbackTarget fun _ _ =>
      .bind (twins_askMove agrees asks echoes _) fun _ _ => .pure trivial
  | autoTransition =>
    exact .bind twins_parameter fun _ _ =>
      .bind (twins_askMove agrees asks echoes _) fun _ _ => .pure trivial

/-- An action is noted to begin and to be over in both systems. -/
theorem twins_carryOut (agrees : pact.Agrees s₀ t₀) (asks : pact.asks (context.depth + 1))
    (echoes : pact.Echoes s₀ t₀ (context.depth + 1) a b) (hinside : inside = true)
    (action : Action) :
    Twins (pact.InStep s₀ t₀ inside) (inside = true) (carryOut a action context)
      (carryOut b action context) :=
  .bind (twins_note trivial) fun _ _ =>
    .tryFinally_note (twins_execute agrees asks echoes hinside action) (twins_note trivial)

/-! ## Outcomes -/

theorem twins_failed {action : ActionType} {rule : String} {fault : Fault} :
    Twins (pact.InStep s₀ t₀ inside) H (failed action rule fault) (failed action rule fault) := by
  unfold failed
  split
  · exact .bind (twins_note trivial) fun _ _ => .pure trivial
  · exact .pure trivial

theorem twins_timedOut {action : ActionType} {rule : String} :
    Twins (pact.InStep s₀ t₀ inside) H (timedOut action rule) (timedOut action rule) := by
  refine .read ?_
  rintro _ _ ⟨u, notices, rfl, rfl, -⟩
  exact .bind (twins_note trivial) fun _ _ => .pure trivial

theorem twins_giveUp {action : ActionType} {rule : String} :
    Twins (pact.InStep s₀ t₀ inside) H (giveUp action rule) (giveUp action rule) := by
  refine .read ?_
  rintro _ _ ⟨u, notices, rfl, rfl, -⟩
  exact .ite (fun _ => twins_failed) fun _ => twins_timedOut

theorem twins_outcomeOf {action : ActionType} {rule : String} (result : Except Fault String) :
    Twins (pact.InStep s₀ t₀ inside) H (outcomeOf action rule result)
      (outcomeOf action rule result) := by
  cases result with
  | ok detail => exact .pure trivial
  | error fault => exact twins_failed

theorem twins_outcomeFrom {action : ActionType} {rule : String} (result : Except Fault String) :
    Twins (pact.InStep s₀ t₀ inside) H (outcomeFrom action rule result)
      (outcomeFrom action rule result) := by
  refine .read ?_
  rintro _ _ ⟨u, notices, rfl, rfl, -⟩
  exact .ite (fun _ => twins_failed) fun _ => twins_outcomeOf result

theorem caught_apply (x : Run α) (s : System) :
    (tryCatch (do return some (← attempt x)) fun _ => pure none : Run (Option (Except Fault α))) s =
      match x s with
      | .ok value t => .ok (some (.ok value)) t
      | .error (.raised fault) t => .ok (some (.error fault)) t
      | .error .hung t => .ok none t := by
  change EStateM.tryCatch (EStateM.bind (attempt x) fun result => pure (some result)) _ s = _
  unfold EStateM.tryCatch EStateM.bind
  rw [attempt_apply]
  cases x s with
  | ok value t => rfl
  | error halt t => cases halt <;> rfl

/-- A system in which an action is running, or none. -/
def System.entered (s : System) (inside : Bool) : System :=
  { s with runner := { s.runner with inside } }

theorem setInside_bind_apply (inside : Bool) (next : Unit → Run α) (s : System) :
    (setInside inside >>= next) s = next () (System.entered s inside) := rfl

theorem inStep_entered {now : Bool} {s t : System} (h : pact.InStep s₀ t₀ inside s t) :
    pact.InStep s₀ t₀ now (System.entered s now) (System.entered t now) := by
  obtain ⟨u, notices, rfl, rfl, hu⟩ := h
  exact ⟨System.entered u now, notices, rfl, rfl, { hu with inside := rfl }⟩

theorem twins_stick : Twins (pact.InStep s₀ t₀ inside) H stick stick :=
  twins_modify fun u _ hu =>
    ⟨{ u with runner := { u.runner with stuck := u.runner.stuck + 1 } }, rfl, rfl, { hu with }⟩

/-- A worker ends also where its action hangs. -/
theorem twins_onWorker {action : ActionType} {rule : String} {x y : Run String}
    (h : Twins (pact.InStep s₀ t₀ true) (true = true) x y) :
    Twins (pact.InStep s₀ t₀ false) H (onWorker action rule x) (onWorker action rule y) := by
  refine .get_bind fun s t hI => ?_
  have hstuck : t.runner.stuck = s.runner.stuck := by
    obtain ⟨u, notices, rfl, rfl, -⟩ := hI
    rfl
  rw [hstuck]
  by_cases hfull : Runner.workers ≤ s.runner.stuck
  · rw [if_pos hfull, if_pos hfull]
    exact twins_giveUp s t hI
  · rw [if_neg hfull, if_neg hfull, setInside_bind_apply, setInside_bind_apply, bind_apply,
      bind_apply, caught_apply, caught_apply]
    -- The body runs with an action inside, so it may hang; afterwards none is running again.
    have hrun := h _ _ (inStep_entered hI)
    generalize x (System.entered s true) = r, y (System.entered t true) = r' at hrun
    cases hrun with
    | ok _ related | raised related =>
      simp only [setInside_bind_apply]
      exact twins_outcomeFrom _ _ _ (inStep_entered related)
    | hung _ related =>
      simp only [setInside_bind_apply]
      exact Twin.bind twins_stick (fun _ _ => twins_giveUp) _ _ (inStep_entered related)

theorem twins_runAction (agrees : pact.Agrees s₀ t₀) (asks : pact.asks (context.depth + 1))
    (echoes : pact.Echoes s₀ t₀ (context.depth + 1) a b) (action : Action) :
    Twins (pact.InStep s₀ t₀ inside) (inside = true) (runAction a context action)
      (runAction b context action) := by
  refine .read ?_
  rintro _ _ ⟨u, notices, rfl, rfl, hu⟩
  simp only [System.behind, hu.inside]
  by_cases hclosed : u.runner.closed
  · rw [if_pos hclosed, if_pos hclosed]
    exact .pure trivial
  · rw [if_neg hclosed, if_neg hclosed]
    cases inside with
    | true =>
      rw [if_pos rfl, if_pos rfl]
      exact .bind (.attempt (twins_carryOut agrees asks echoes rfl action)) fun result _ =>
        twins_outcomeOf result
    | false =>
      rw [if_neg Bool.false_ne_true, if_neg Bool.false_ne_true]
      exact twins_onWorker (twins_carryOut agrees asks echoes rfl action)

theorem twins_runActions (agrees : pact.Agrees s₀ t₀) (asks : pact.asks (context.depth + 1))
    (echoes : pact.Echoes s₀ t₀ (context.depth + 1) a b) (actions : List Action) :
    Twins (pact.InStep s₀ t₀ inside) (inside = true) (runActions a context actions)
      (runActions b context actions) :=
  .mapM fun action _ => twins_runAction agrees asks echoes action

end Stageflow.Run
