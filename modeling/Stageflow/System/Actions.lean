import Stageflow.System.Moves

/-!
# Running actions

Every action of a rule is run and gives an outcome; one that fails does not keep the others from
running. An action inside another one runs within it, so a step that hangs there takes the outer one
with it, and the outer one times out.
-/

namespace Stageflow

/-- What actions run in response to. -/
structure ActionContext where
  rule : String
  item : String
  team : String
  event : Event
  depth : Int
  deriving Repr

/-- What became of an action. -/
structure Outcome where
  action : ActionType
  ok : Bool
  detail : String := ""
  error : Option String := none
  deriving DecidableEq, Repr

/-- Who acts for a rule; what its actions cause is one level deeper. -/
def ActionContext.actor (context : ActionContext) : Actor where
  name := s!"automation:{context.rule}"
  depth := context.depth + 1

namespace Run

/-- The variables of templates, for a loaded item. -/
def variablesOf (context : ActionContext) (item : Item) : Fields :=
  let source := match context.event with
    | .moved m => m.source
    | .signal _ => item.previousStatus?
  [("item_id", .str item.id), ("status", .str item.status), ("from_status", .str (source.getD "")),
    ("team", .str item.team), ("event", .str context.event.type), ("rule", .str context.rule)]

/-- Fills in the templates among some fields. -/
def fillFields (bindings : Fields) (fields : Fields) : Except Fault Fields :=
  fields.mapM fun p =>
    match Template.fillValue bindings p.2 with
    | .ok value => .ok (p.1, value)
    | .error fault => .error (.template fault)

/-- A parameter that has to be there. -/
def parameter (action : ActionType) (params : Fields) (name : String) : Run Json :=
  match params.get? name with
  | some value => pure value
  | none => raise (.parameterMissing action name)

/-- A collaborator that has to be there. -/
def need (c : Collaborator) : Run Unit := do
  if (← get).runner.conducts c = .missing then raise (.unconfigured c.title)

/-- A call of a collaborator: its effect, unless it fails or hangs. -/
def call {α : Type} (c : Collaborator) (effect : Run α) : Run α := do
  match (← get).runner.conducts c with
  | .missing => raise (.unconfigured c.title)
  | .failing => raise (.down c.name)
  | .hanging => throw .hung
  | .recording => effect

/-- Changes the records. -/
def record (change : Records → Records) : Run Unit :=
  modify fun s => { s with records := change s.records }

/-! ## The types of actions

What an action has done is told behind its effect, and the values that are named in it have to be
ones that can be written. -/

/-- Assigns the item. -/
def runAssign (context : ActionContext) (params : Fields) : Run String := do
  need .tracker
  let assignee ← parameter .assign params "assignee"
  call .tracker (record fun r => { r with assignments := r.assignments.put context.item assignee })
  ofReading do return s!"assigned to {← assignee.written}"

/-- Creates a node for the item. -/
def runCreateNode (context : ActionContext) (params : Fields) : Run String := do
  need .graph
  let type ← parameter .createNode params "node_type"
  let id ← call .graph do
    let id ← newId
    record fun r => { r with nodes := r.nodes ++ [⟨id, type, context.item⟩] }
    return id
  return s!"node {id}"

/-- Creates an edge between two statuses, by default those of the event. -/
def runCreateEdge (bindings params : Fields) : Run String := do
  need .graph
  let type ← parameter .createEdge params "edge_type"
  let source := (params.getOrNull "from").orElse (bindings.getOrNull "from_status")
  let target := (params.getOrNull "to").orElse (bindings.getOrNull "status")
  call .graph (record fun r => { r with links := r.links ++ [⟨source, target, type⟩] })
  ofReading do
    return s!"edge {← source.written} -> {← target.written} ({← type.written})"

/-- The variables of a document: those of templates, and the action's own, filled in. -/
def documentVariables (bindings params : Fields) : Except Fault Fields :=
  match (params.getOrNull "vars").orElse (.obj []) with
  | .obj own => do return (← fillFields bindings own).foldl (fun fs p => fs.put p.1 p.2) bindings
  | value => .error (.noVariables value.kindName)

/-- Creates a document. -/
def runCreateDocument (bindings params : Fields) : Run String := do
  need .documents
  let all ← ofExcept (documentVariables bindings params)
  let template ← parameter .createDocument params "template"
  let path ← parameter .createDocument params "path"
  call .documents (record fun r => { r with documents := r.documents ++ [⟨template, path, all⟩] })
  ofReading do return s!"document {← path.written}"

/-- Sends a notification. -/
def runNotify (params : Fields) : Run String := do
  need .notifier
  let channel ← parameter .notify params "channel"
  let message := params.getOr "message" (.str "")
  let severity := params.getOr "severity" (.str "info")
  call .notifier (record fun r => { r with sent := r.sent ++ [⟨channel, message, severity⟩] })
  ofReading do return s!"notified {← channel.written}"

/-- The status that a rollback goes to: the named one, else the one held before. -/
def rollbackTarget (context : ActionContext) (params : Fields) : Run Json :=
  match params.getOrNull "to" with
  | .null => do
    match (← loadItem context.item).previousStatus? with
    | some status => return .str status
    | none => raise (.nothingToRollBack context.item)
  | target => pure target

/-- Asks for a move of the item, one level deeper. -/
def askMove (announce : Event → Run Unit) (context : ActionContext) (target : Json) :
    Run Passage := do
  note (.asked context.item target context.actor)
  moveItem announce context.item target context.actor

/-- Moves the item back. -/
def runRollback (announce : Event → Run Unit) (context : ActionContext) (params : Fields) :
    Run String := do
  let target ← rollbackTarget context params
  let passage ← askMove announce context target
  return s!"rolled back to {passage.move.route.target}"

/-- Moves the item on. -/
def runAutoTransition (announce : Event → Run Unit) (context : ActionContext) (params : Fields) :
    Run String := do
  let target ← parameter .autoTransition params "to"
  let passage ← askMove announce context target
  return s!"transitioned to {passage.move.route.target}"

/-- Runs an action to its end. -/
def execute (announce : Event → Run Unit) (action : Action) (context : ActionContext) :
    Run String := do
  let item ← loadItem context.item
  let bindings := variablesOf context item
  let params ← ofExcept (fillFields bindings action.params)
  match action.type with
  | .assign => runAssign context params
  | .createNode => runCreateNode context params
  | .createEdge => runCreateEdge bindings params
  | .createDocument => runCreateDocument bindings params
  | .notify => runNotify params
  | .rollback => runRollback announce context params
  | .autoTransition => runAutoTransition announce context params

/-- Runs an action to its end, and notes that it begins and that it is over, however it ends. -/
def carryOut (announce : Event → Run Unit) (action : Action) (context : ActionContext) :
    Run String := do
  note (.began action.type context.rule context.depth)
  try execute announce action context
  finally note (.ended action.type context.rule)

/-! ## Outcomes -/

/-- The outcome of a failed action; a refused move is not worth a notice. -/
def failed (action : ActionType) (rule : String) (fault : Fault) : Run Outcome := do
  if !fault.isRefusal then note (.actionFailed action rule)
  return { action, ok := false, error := some fault.report }

/-- The outcome of an action that did not end in time. -/
def timedOut (action : ActionType) (rule : String) : Run Outcome := do
  note (.actionTimedOut action rule (← get).settings.actionTimeout)
  return { action, ok := false, error := some "timed out" }

/-- Sets whether an action is running. -/
def setInside (inside : Bool) : Run Unit :=
  modify fun s => { s with runner := { s.runner with inside } }

/-- One more worker that never comes back. -/
def stick : Run Unit :=
  modify fun s => { s with runner := { s.runner with stuck := s.runner.stuck + 1 } }

/-- The outcome of an action that is over. -/
def outcomeOf (action : ActionType) (rule : String) : Except Fault String → Run Outcome
  | .ok detail => return { action, ok := true, detail }
  | .error fault => failed action rule fault

/-- The outcome of an action that does not come to an end: a wait for it that is out of range is
refused at once. -/
def giveUp (action : ActionType) (rule : String) : Run Outcome := do
  if (← get).settings.actsTooLong then failed action rule .budgetTooLong else timedOut action rule

/-- The outcome of an action that came to its end on a worker. Where the wait for it is out of range
it is taken to have failed all the same, unless it was over before. -/
def outcomeFrom (action : ActionType) (rule : String) (result : Except Fault String) :
    Run Outcome := do
  let s ← get
  if s.settings.actsTooLong && !s.runner.prompt action rule then failed action rule .budgetTooLong
  else outcomeOf action rule result

/-- Runs an action on a worker of its own, up to its budget. -/
def onWorker (action : ActionType) (rule : String) (body : Run String) : Run Outcome := do
  if Runner.workers ≤ (← get).runner.stuck then giveUp action rule
  else
    setInside true
    let result ← tryCatch (do return some (← attempt body)) fun _ => pure none
    setInside false
    match result with
    | some result => outcomeFrom action rule result
    | none =>
      stick
      giveUp action rule

/-- Runs an action and gives its outcome. -/
def runAction (announce : Event → Run Unit) (context : ActionContext) (action : Action) :
    Run Outcome := do
  let runner := (← get).runner
  if runner.closed then
    return { action := action.type, ok := false, error := some "action runner is closed" }
  else if runner.inside then
    outcomeOf action.type context.rule (← attempt (carryOut announce action context))
  else onWorker action.type context.rule (carryOut announce action context)

/-- Runs actions one after another. -/
def runActions (announce : Event → Run Unit) (context : ActionContext) (actions : List Action) :
    Run (List Outcome) :=
  actions.mapM (runAction announce context)

end Run

end Stageflow
