import Stageflow.System.Documents

/-!
# Sessions

A session is a list of operations that a running system is asked for, one after another. An
operation that fails leaves the state as it is when it fails, and the session goes on from there.
-/

namespace Stageflow

/-- What a running system is asked for from outside. -/
inductive Operation where
  | create (request : Run.NewItem)
  | move (item : String) (target : Json) (actor : Actor)
  | signOff (item stage role : String) (approver : Json)
  | setCriterion (item criterion : String) (satisfied : Json)
  | migrate (item : String) (version : Option Int)
  | choices (item : String)
  | gate (item : String) (stage : Option String)
  | ingest (signal : Signal)
  | deliver (event : Event) (subscriber : Subscriber)
  | publish (event : Event)
  | tick (time : Option Instant)
  | disarm (item : String) (rule : Option String)
  | act (context : ActionContext) (actions : List Action)
  | checkThresholds (time : Option Instant) (items : List String) (depth : Int)
  | advance (seconds : Json)
  | putDocument (raw : Json)
  | saveDocument (raw : Json) (expected : Int)
  | putFragment (name : String) (fragment : Json)
  | activate (team : String)
  | activateAll
  | check (team : String)
  | startEvaluator
  | stopEvaluator

namespace Operation

open Run in
/-- The computation that an operation asks for. Its result is not kept. -/
def perform : Operation → Run Unit
  | .create request => do let _ ← createItem Run.publish request
  | .move item target actor => do let _ ← moveItem Run.publish item target actor
  | .signOff item stage role approver => do let _ ← Run.signOff item stage role approver
  | .setCriterion item criterion satisfied => do
    let _ ← Run.setCriterion item criterion satisfied
  | .migrate item version => do let _ ← Run.migrate item version
  | .choices item => do let _ ← choicesOf item
  | .gate item stage => do let _ ← gateOf item stage
  | .ingest signal => Run.ingest Run.publish signal
  | .deliver event subscriber => Run.deliver Run.publish event subscriber
  | .publish event => Run.publish event
  | .tick time => do let _ ← Run.tick Run.publish time
  | .disarm item rule => do let _ ← Run.disarm item rule
  | .act context actions => do let _ ← runActions Run.publish context actions
  | .checkThresholds time items depth => do
    let _ ← Run.checkThresholds Run.publish time items depth
  | .advance seconds => do let _ ← Run.advance seconds
  | .putDocument raw => do let _ ← Run.putDocument raw
  | .saveDocument raw expected => do let _ ← Run.saveDocument raw expected
  | .putFragment name fragment => Run.putFragment name fragment
  | .activate team => do let _ ← Run.activate team
  | .activateAll => do let _ ← Run.activateAll
  | .check team => do let _ ← Run.check team
  | .startEvaluator => Run.startEvaluator
  | .stopEvaluator => Run.stopEvaluator

end Operation

namespace System

/-- The state that a session leads to. -/
def through (s : System) (ops : List Operation) : System :=
  ops.foldl (fun s op => op.perform.after s) s

@[simp] theorem through_nil (s : System) : s.through [] = s := rfl

@[simp] theorem through_cons (s : System) (op : Operation) (ops : List Operation) :
    s.through (op :: ops) = (op.perform.after s).through ops := rfl

theorem through_append (s : System) (before later : List Operation) :
    s.through (before ++ later) = (s.through before).through later := by
  simp [through]

end System

end Stageflow
