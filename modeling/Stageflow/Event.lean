import Stageflow.Item.Basic

/-!
# Events

What subscribers are told: that an item moved, or that something happened outside. The depth counts
the automation actions that led to an event.
-/

namespace Stageflow

/-- An item entered a status; without a source it was created there. -/
structure Moved where
  item : String
  team : String
  workflowVersion : Int
  source : Option String
  target : String
  sourceStage : Option String
  targetStage : String
  actor : String
  time : Instant
  depth : Int := 0
  deriving DecidableEq, Repr

/-- Something that happened outside, or a metric that went over its limit. -/
structure Signal where
  type : String
  item : Option String := none
  team : Option String := none
  payload : Fields := []
  time : Option Instant := none
  depth : Int := 0
  deriving Repr

/-- An event. -/
inductive Event where
  | moved (m : Moved)
  | signal (s : Signal)
  deriving Repr

namespace Event

/-- The type of an event. -/
def type : Event → String
  | .moved _ => "transition"
  | .signal s => s.type

/-- The depth of an event. -/
def depth : Event → Int
  | .moved m => m.depth
  | .signal s => s.depth

/-- The item of an event. -/
def item? : Event → Option String
  | .moved m => some m.item
  | .signal s => s.item

/-- When an event happened. -/
def time? : Event → Option Instant
  | .moved m => some m.time
  | .signal s => s.time

end Event

/-- The subscribers of events: those of the system, and others of a name that fail on every event.
-/
inductive Subscriber where
  | automation
  | metrics
  | recorder
  | failing (name : String)
  deriving DecidableEq, Repr

/-- The name of a subscriber. -/
def Subscriber.name : Subscriber → String
  | .automation => "automation"
  | .metrics => "metrics"
  | .recorder => "recorder"
  | .failing name => name

/-- The subscriber of the system that has a name. -/
def Subscriber.ofName? (s : String) : Option Subscriber :=
  [Subscriber.automation, .metrics, .recorder].find? (·.name = s)

/-- Who asks for a change. -/
structure Actor where
  name : String := "system"
  roles : List String := []
  depth : Int := 0
  deriving DecidableEq, Repr

end Stageflow
