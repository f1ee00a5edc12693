import Stageflow.Proofs.Keeps
import Stageflow.Proofs.View

/-!
# What actions keep

An action changes no more than the records about its item and the state of the runner, apart from
what it notes and the move that it may ask for. A property that tolerates those changes is kept by
every action, if it is kept by loading the item and by moving it.
-/

namespace Stageflow

open Run

namespace Notice

/-- Whether a notice says what an action asks for, or that it came to nothing. -/
def isOfAction : Notice → Bool
  | .asked .. | .actionFailed .. | .actionTimedOut .. => true
  | _ => false

/-- Whether a notice says that an action begins or is over. -/
def isMark : Notice → Bool
  | .began .. | .ended .. => true
  | _ => false

theorem not_isTraced_of_isOfAction {notice : Notice} (h : notice.isOfAction) :
    notice.isTraced = false := by
  cases notice <;> first | rfl | cases h

theorem not_isTraced_of_isMark {notice : Notice} (h : notice.isMark) :
    notice.isTraced = false := by
  cases notice <;> first | rfl | cases h

end Notice

/-- Whether a property lasts while actions note what they ask for and that they failed, ids are
drawn, the runner changes, and collaborators record something, with no other item assigned than one.
-/
structure Tolerates (I : System → Prop) (item : String) : Prop where
  note : ∀ {s notice}, Notice.isOfAction notice → I s →
    I { s with journal := notice :: s.journal }
  drawn : ∀ {s} nextId, I s → I { s with nextId }
  recorded : ∀ {s} {records : Records},
    (∀ id, id ≠ item → records.assignments.get? id = s.records.assignments.get? id) →
      I s → I { s with records }
  runner : ∀ {s} runner, I s → I { s with runner }

namespace Tolerates

variable {α : Type} {I : System → Prop} {context : ActionContext} {announce : Event → Run Unit}
  (tolerates : Tolerates I context.item)
include tolerates

theorem keeps_note {notice : Notice} (h : notice.isOfAction) : Keeps I (Run.note notice) :=
  .modify fun _ hs => tolerates.note h hs

theorem keeps_newId : Keeps I newId := by
  refine .get_bind fun s hs => ?_
  simp only [leads_bind, leads_set, leads_pure]
  exact tolerates.drawn _ hs

omit tolerates in
theorem keeps_parameter {action : ActionType} {params : Fields} {name : String} :
    Keeps I (parameter action params name) := by
  unfold parameter
  split
  · exact .pure
  · exact .raise

omit tolerates in
theorem keeps_need {c : Collaborator} : Keeps I (need c) := by
  refine .bind .get fun s => ?_
  split
  · exact .raise
  · exact .pure

omit tolerates in
theorem keeps_call {c : Collaborator} {effect : Run α} (h : Keeps I effect) :
    Keeps I (call c effect) := by
  refine .bind .get fun s => ?_
  split
  · exact .raise
  · exact .raise
  · exact fun _ hs => hs
  · exact h

theorem keeps_record {change : Records → Records}
    (h : ∀ r id, id ≠ context.item → (change r).assignments.get? id = r.assignments.get? id) :
    Keeps I (record change) :=
  .modify fun _ hs => tolerates.recorded (h _) hs

/-! ## The types of actions -/

theorem keeps_runAssign {params : Fields} : Keeps I (runAssign context params) :=
  .bind keeps_need fun _ => .bind keeps_parameter fun _ =>
    .bind (keeps_call (tolerates.keeps_record fun _ _ hid => Table.get?_put_of_ne hid ..)) fun _ =>
      .ofReading

theorem keeps_runCreateNode {params : Fields} : Keeps I (runCreateNode context params) :=
  .bind keeps_need fun _ => .bind keeps_parameter fun _ =>
    .bind (keeps_call (.bind tolerates.keeps_newId fun _ =>
      .bind (tolerates.keeps_record fun _ _ _ => rfl) fun _ => .pure)) fun _ => .pure

theorem keeps_runCreateEdge {bindings params : Fields} : Keeps I (runCreateEdge bindings params) :=
  .bind keeps_need fun _ => .bind keeps_parameter fun _ =>
    .bind (keeps_call (tolerates.keeps_record fun _ _ _ => rfl)) fun _ => .ofReading

theorem keeps_runCreateDocument {bindings params : Fields} :
    Keeps I (runCreateDocument bindings params) :=
  .bind keeps_need fun _ => .bind .ofExcept fun _ => .bind keeps_parameter fun _ =>
    .bind keeps_parameter fun _ =>
      .bind (keeps_call (tolerates.keeps_record fun _ _ _ => rfl)) fun _ => .ofReading

theorem keeps_runNotify {params : Fields} : Keeps I (runNotify params) :=
  .bind keeps_need fun _ => .bind keeps_parameter fun _ =>
    .bind (keeps_call (tolerates.keeps_record fun _ _ _ => rfl)) fun _ => .ofReading

omit tolerates in
theorem keeps_rollbackTarget {params : Fields} (load : Keeps I (loadItem context.item)) :
    Keeps I (rollbackTarget context params) := by
  unfold rollbackTarget
  split
  · refine .bind load fun item => ?_
    split
    · exact .pure
    · exact .raise
  · exact .pure

theorem keeps_execute {action : Action} (load : Keeps I (loadItem context.item))
    (move : ∀ target, Keeps I (moveItem announce context.item target context.actor)) :
    Keeps I (execute announce action context) := by
  have ask (target : Json) : Keeps I (askMove announce context target) :=
    .bind (tolerates.keeps_note rfl) fun _ => move target
  refine .bind load fun item => .bind .ofExcept fun params => ?_
  split
  · exact tolerates.keeps_runAssign
  · exact tolerates.keeps_runCreateNode
  · exact tolerates.keeps_runCreateEdge
  · exact tolerates.keeps_runCreateDocument
  · exact tolerates.keeps_runNotify
  · exact .bind (keeps_rollbackTarget load) fun target => .bind (ask target) fun _ => .pure
  · exact .bind keeps_parameter fun target => .bind (ask target) fun _ => .pure

/-- An action that is noted to begin and to be over. -/
theorem keeps_carryOut {action : Action}
    (marks : ∀ {s notice}, Notice.isMark notice → I s →
      I { s with journal := notice :: s.journal })
    (load : Keeps I (loadItem context.item))
    (move : ∀ target, Keeps I (moveItem announce context.item target context.actor)) :
    Keeps I (carryOut announce action context) :=
  .bind (.modify fun _ hs => marks rfl hs) fun _ =>
    .tryFinally (tolerates.keeps_execute load move) (.modify fun _ hs => marks rfl hs)

/-! ## Outcomes -/

theorem keeps_failed {action : ActionType} {rule : String} {fault : Fault} :
    Keeps I (failed action rule fault) := by
  unfold failed
  split
  · exact .bind (tolerates.keeps_note rfl) fun _ => .pure
  · exact .pure

theorem keeps_timedOut {action : ActionType} {rule : String} : Keeps I (timedOut action rule) :=
  .bind .get fun _ => .bind (tolerates.keeps_note rfl) fun _ => .pure

theorem keeps_giveUp {action : ActionType} {rule : String} : Keeps I (giveUp action rule) := by
  refine .bind .get fun s => ?_
  split
  · exact tolerates.keeps_failed
  · exact tolerates.keeps_timedOut

theorem keeps_outcomeOf {action : ActionType} {rule : String} :
    ∀ result, Keeps I (outcomeOf action rule result)
  | .ok _ => .pure
  | .error _ => tolerates.keeps_failed

theorem keeps_outcomeFrom {action : ActionType} {rule : String} {result : Except Fault String} :
    Keeps I (outcomeFrom action rule result) := by
  refine .bind .get fun s => ?_
  split
  · exact tolerates.keeps_failed
  · exact tolerates.keeps_outcomeOf result

theorem keeps_onWorker {action : ActionType} {rule : String} {body : Run String}
    (h : Keeps I body) : Keeps I (onWorker action rule body) := by
  have hinside (inside : Bool) : Keeps I (setInside inside) :=
    .modify fun _ hs => tolerates.runner _ hs
  have hstick : Keeps I stick := .modify fun _ hs => tolerates.runner _ hs
  refine .bind .get fun s => ?_
  split
  · exact tolerates.keeps_giveUp
  · refine .bind (hinside true) fun _ =>
      .bind (.tryCatch (.bind (.attempt h) fun _ => .pure) fun _ => .pure) fun result =>
        .bind (hinside false) fun _ => ?_
    split
    · exact tolerates.keeps_outcomeFrom
    · exact .bind hstick fun _ => tolerates.keeps_giveUp

/-- Actions keep what each of them keeps when it is carried out. -/
theorem keeps_runActions {actions : List Action}
    (carry : ∀ action, Keeps I (carryOut announce action context)) :
    Keeps I (runActions announce context actions) := by
  refine .mapM fun action _ => .bind .get fun s => ?_
  dsimp only
  split
  · exact .pure
  · split
    · exact .bind (.attempt (carry action)) tolerates.keeps_outcomeOf
    · exact tolerates.keeps_onWorker (carry action)

end Tolerates

end Stageflow
