import Stageflow.System.Session

/-!
# Answers

What operations answer to whoever asks for them. `Operation.answer` is given how to announce what an
operation causes; `perform` publishes it and does not keep the answer.
-/

namespace Stageflow

/-- What an operation answers, if it succeeds. -/
inductive Answer where
  | done
  | item (item : Item)
  | passage (passage : Run.Passage)
  | gate (gate : Gate)
  | choices (choices : List Workflow.Choice)
  | fired (fired : List Run.Fired)
  | ended (count : Nat)
  | outcomes (outcomes : List Outcome)
  | alerts (alerts : List Signal)
  | clock (time : Instant)
  | document (document : TeamDocument)
  | stored (version : Int)
  | workflow (w : Workflow)
  | activated (done : List Workflow) (failures : Table String Fault)
  | report (report : CheckReport)

namespace Operation

open Run in
/-- The computation that an operation asks for, with its answer. -/
def answer (announce : Event → Run Unit) : Operation → Run Answer
  | .create request => do return .item (← createItem announce request)
  | .move item target actor => do return .passage (← moveItem announce item target actor)
  | .signOff item stage role approver => do
    return .gate (← Run.signOff item stage role approver)
  | .setCriterion item criterion satisfied => do
    return .item (← Run.setCriterion item criterion satisfied)
  | .migrate item version => do return .item (← Run.migrate item version)
  | .choices item => do return .choices (← choicesOf item)
  | .gate item stage => do return .gate (← gateOf item stage)
  | .ingest signal => do
    Run.ingest announce signal
    return .done
  | .deliver event subscriber => do
    Run.deliver announce event subscriber
    return .done
  | .publish event => do
    announce event
    return .done
  | .tick time => do return .fired (← Run.tick announce time)
  | .disarm item rule => do return .ended (← Run.disarm item rule)
  | .act context actions => do return .outcomes (← runActions announce context actions)
  | .checkThresholds time items depth => do
    return .alerts (← Run.checkThresholds announce time items depth)
  | .advance seconds => do return .clock (← Run.advance seconds)
  | .putDocument raw => do return .document (← Run.putDocument raw)
  | .saveDocument raw expected => do return .stored (← Run.saveDocument raw expected)
  | .putFragment name fragment => do
    Run.putFragment name fragment
    return .done
  | .activate team => do return .workflow (← Run.activate team)
  | .activateAll => do
    let (done, failures) ← Run.activateAll
    return .activated done failures
  | .check team => do return .report (← Run.check team)
  | .startEvaluator => do
    Run.startEvaluator
    return .done
  | .stopEvaluator => do
    Run.stopEvaluator
    return .done

/-- What is performed is what is answered when all is published. -/
theorem perform_eq_answer (op : Operation) :
    op.perform = (op.answer Run.publish >>= fun _ => pure ()) := by
  cases op <;> simp [perform, answer]

theorem perform_apply (op : Operation) (s : System) :
    op.perform s =
      match op.answer Run.publish s with
      | .ok _ t => .ok () t
      | .error halt t => .error halt t := by
  rw [perform_eq_answer]
  change EStateM.bind (op.answer Run.publish) (fun _ => pure ()) s = _
  unfold EStateM.bind
  cases op.answer Run.publish s <;> rfl

theorem after_perform (op : Operation) (s : System) :
    op.perform.after s = (op.answer Run.publish).after s := by
  unfold Run.after
  rw [perform_apply]
  cases op.answer Run.publish s <;> rfl

end Operation

end Stageflow
