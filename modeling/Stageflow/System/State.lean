import Stageflow.Metrics.Track
import Stageflow.Settings
import Stageflow.System.Items
import Stageflow.System.Notice
import Stageflow.System.Registry

/-!
# The state of a running system

`System` holds all that a running system knows, and `Run` is a computation on it. A computation ends
with a value, with a fault, or not at all: `Halt.hung` stands for a step that never comes back.
-/

namespace Stageflow

/-! ## Collaborators -/

/-- The systems that actions talk to. -/
inductive Collaborator where
  | graph
  | notifier
  | documents
  | tracker
  deriving DecidableEq, Repr

/-- The name of a collaborator. -/
def Collaborator.name : Collaborator → String
  | .graph => "graph"
  | .notifier => "notifier"
  | .documents => "documents"
  | .tracker => "tracker"

/-- The collaborator of a name. -/
def Collaborator.ofName? (s : String) : Option Collaborator :=
  [Collaborator.graph, .notifier, .documents, .tracker].find? (·.name = s)

/-- What a collaborator is called where it is missing. -/
def Collaborator.title : Collaborator → String
  | .graph => "knowledge graph"
  | .notifier => "notifier"
  | .documents => "document store"
  | .tracker => "tracker"

/-- How a collaborator answers: it is not there, it fails, it never answers, or it records. -/
inductive Conduct where
  | missing
  | failing
  | hanging
  | recording
  deriving DecidableEq, Repr

/-- A node of the knowledge graph. -/
structure Node where
  id : String
  type : Json
  item : String
  deriving Repr

/-- An edge of the knowledge graph. -/
structure Link where
  source : Json
  target : Json
  type : Json
  deriving Repr

/-- A notification. -/
structure Notification where
  channel : Json
  message : Json
  severity : Json
  deriving Repr

/-- A created document. -/
structure CreatedDocument where
  template : Json
  path : Json
  bindings : Fields
  deriving Repr

/-- What the collaborators recorded. -/
structure Records where
  nodes : List Node := []
  links : List Link := []
  sent : List Notification := []
  documents : List CreatedDocument := []
  assignments : Fields := []
  deriving Repr

/-! ## Alerts and hooks -/

/-- What becomes of metric alerts: they are recorded and given to automation, recorded, recorded and
refused, or dropped. -/
inductive AlertSink where
  | automation
  | recording
  | failing
  | none
  deriving DecidableEq, Repr

/-- What runs at the end of a tick: the check of the metric limits, a hook that fails, or one that
sends a notification. -/
inductive TickHook where
  | thresholds
  | failing
  | notifying
  deriving DecidableEq, Repr

/-! ## The whole -/

/-- The state of the dispatcher of events, with what the recorder received. `prompt` says of an
event whether all its calls are over before they are waited for. -/
structure Dispatcher where
  subscribers : List Subscriber := [.automation, .metrics, .recorder]
  closed : Bool := false
  received : List Event := []
  prompt : Event → Bool := fun _ => false

/-- Whether the calls for an event are waited for: calls on workers that are not over yet. -/
def Dispatcher.awaits (d : Dispatcher) (event : Event) : Bool :=
  !d.closed && !d.subscribers.isEmpty && decide (event.depth ≤ 0) && !d.prompt event

/-- The state of automation. Rule books are kept from the first time a version is used. -/
structure Automation where
  watches : Watches := []
  rules : Table (String × Int) RuleBook := []
  hooks : List TickHook := [.thresholds]
  running : Bool := false
  deriving Repr

/-- The state of the runner of actions. `inside` says that an action is running; `stuck` counts the
workers that never come back; `prompt` says of the actions of a type of a rule whether they are over
before they are waited for. -/
structure Runner where
  conducts : Collaborator → Conduct := fun _ => .recording
  closed : Bool := false
  inside : Bool := false
  stuck : Nat := 0
  prompt : ActionType → String → Bool := fun _ _ => false

/-- How many actions can run at a time. -/
def Runner.workers : Nat := 8

/-- All that a running system knows. -/
structure System where
  settings : Settings := {}
  clock : Instant := { micros := 0 }
  nextId : Nat := 1
  source : Source := {}
  shelf : Option Source := none
  documentVersions : Table String Int := []
  registry : Registry := {}
  items : Items := []
  held : List String := []
  rival : Option String := none
  dispatcher : Dispatcher := {}
  automation : Automation := {}
  runner : Runner := {}
  records : Records := {}
  metrics : Metrics := {}
  sink : AlertSink := .automation
  alerts : List Signal := []
  journal : List Notice := []

/-- Whether the wait for the calls for an event is refused, since its time is out of range. -/
def System.cannotAwait (s : System) (event : Event) : Bool :=
  s.settings.deliversTooLong && s.dispatcher.awaits event

/-- How a computation ends without a value. -/
inductive Halt where
  | raised (fault : Fault)
  | hung
  deriving Repr

/-- A computation on the system. What it did before it ended stays done. -/
abbrev Run := EStateM Halt System

namespace Run

/-- The state after a computation, however it ends. -/
def after {α : Type} (action : Run α) (s : System) : System :=
  match action s with
  | .ok _ t => t
  | .error _ t => t

/-- Ends with a fault. -/
def raise {α : Type} (fault : Fault) : Run α := throw (.raised fault)

/-- The value of a result, or its fault. -/
def ofExcept {α : Type} : Except Fault α → Run α
  | .ok value => pure value
  | .error fault => raise fault

/-- The value of a reading, or its defect. -/
def ofReading {α : Type} : Except Defect α → Run α
  | .ok value => pure value
  | .error d => raise (.defect d)

/-- Adds a notice to the journal. -/
def note (notice : Notice) : Run Unit :=
  modify fun s => { s with journal := notice :: s.journal }

/-- Runs a computation; its fault is handed on, and what hangs stays hung. -/
def attempt {α : Type} (action : Run α) : Run (Except Fault α) :=
  tryCatch (do return .ok (← action)) fun halt =>
    match halt with
    | .raised fault => pure (.error fault)
    | .hung => throw .hung

/-- A new id: its number in twelve hexadecimal digits. -/
def newId : Run String := do
  let s ← get
  set { s with nextId := s.nextId + 1 }
  return Text.hexDigits 12 s.nextId

end Run

/-- Edits the documents. -/
def System.edit (change : Source → Source) (s : System) : System :=
  match s.shelf with
  | some shelf => { s with shelf := some (change shelf) }
  | none => { s with source := change s.source }

end Stageflow
