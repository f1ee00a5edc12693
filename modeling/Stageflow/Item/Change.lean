import Stageflow.Item.Route

/-!
# Changes of items

What the operations on one item come to, apart from where the item is kept. Each takes the item as
it was loaded and the workflow it is bound to, and gives the item to be written, if it changes.
-/

namespace Stageflow

/-- A decided move. -/
structure Move where
  route : Route
  source : Stage
  target : Stage
  warnings : List String

namespace Workflow

/-- The gate of a stage for an item. -/
def gate (w : Workflow) (item : Item) (stage : String) : Gate :=
  Gate.check (w.level? item.complexity) stage item.signOffs

/-- What stands against leaving a stage. -/
def checkLeave (w : Workflow) (item : Item) (stage : Stage) : Except Fault Unit :=
  let gate := w.gate item stage.id
  let unmet := item.unmet stage.exitCriteria
  if !gate.isOpen then .error (.approvalPending item.id stage.id gate.missing)
  else if !unmet.isEmpty && stage.enforcement = .hard then
    .error (.criteriaUnmet item.id stage.id unmet)
  else .ok ()

/-- Unmet criteria that a move between stages is warned of. -/
def moveWarnings (item : Item) (source target : Stage) : List String :=
  let leaving := item.unmet source.exitCriteria
  let entering := item.unmet target.entryCriteria
  (if leaving.isEmpty then []
    else [s!"Leaving stage '{source.id}' with unmet exit criteria: " ++ Text.commas leaving]) ++
  (if entering.isEmpty then []
    else [s!"Entering stage '{target.id}' with unmet entry criteria: " ++ Text.commas entering])

/-- Decides a requested move: the route has to exist, and a stage is left only through its open gate
and, if it is hard, with its exit criteria met. -/
def decide (w : Workflow) (item : Item) (target : Json) : Except Fault Move := do
  let route ← w.route item target
  let source ← (w.stageOf item.status).mapError .statusPlace
  let goal ← (w.stageOf route.target).mapError .statusPlace
  if source.id = goal.id then return ⟨route, source, goal, []⟩
  else
    w.checkLeave item source
    return ⟨route, source, goal, moveWarnings item source goal⟩

/-- A destination that an item could move to, with what is still missing. -/
structure Choice where
  target : String
  stage : String
  crosses : Bool
  missingRoles : List String
  unmetCriteria : List String
  deriving DecidableEq, Repr

/-- Whether no sign-off is missing. -/
def Choice.ready (choice : Choice) : Bool := choice.missingRoles.isEmpty

/-- One destination as a choice. -/
def choice (w : Workflow) (item : Item) (current : Stage) (target : String) :
    Except Fault Choice := do
  let stage ← (w.stageOf target).mapError .statusPlace
  if stage.id = current.id then return ⟨target, stage.id, false, [], []⟩
  else
    return ⟨target, stage.id, true, (w.gate item current.id).missing,
      item.unmet current.exitCriteria⟩

/-- The destinations that an item could move to, by code point. -/
def choices (w : Workflow) (item : Item) : Except Fault (List Choice) := do
  let current ← (w.stageOf item.status).mapError .statusPlace
  (w.destinations item.status).mapM (w.choice item current)

/-- The item with a sign-off, or nothing if the role has signed off. -/
def signOff (w : Workflow) (item : Item) (stage role : String) (approver : Json) (now : Instant) :
    Except Fault (Option Item) :=
  if (w.stage? stage).isNone then .error (.unknownStage stage item.team)
  else
    match item.signOffs.record stage role approver with
    | (true, signOffs) => .ok (some { item with signOffs, updatedAt := some now })
    | (false, _) => .ok none

/-- The item bound to this version of its team's workflow, or nothing if it is. A level that the
version does not have is cleared. -/
def rebind (w : Workflow) (item : Item) (now : Instant) : Except Fault (Option Item) :=
  if w.version = item.workflowVersion then .ok none
  else if (w.status? item.status).isNone then
    .error (.illegal item.id item.status item.status
      (some s!"status missing from config version {w.version}"))
  else
    let complexity := item.complexity.filter fun _ => (w.level? item.complexity).isSome
    .ok (some { item with
      workflowVersion := w.version, complexity, updatedAt := some now })

end Workflow

/-- The item with a criterion set, or nothing if it is. -/
def Item.setCriterion (item : Item) (criterion : String) (satisfied : Json) (now : Instant) :
    Option Item :=
  if (item.criteria.getOrNull criterion).alike satisfied then none
  else some { item with
    criteria := item.criteria.put criterion satisfied, updatedAt := some now }

/-- An item at the initial status of a workflow. -/
def Workflow.newItem (w : Workflow) (id : String) (complexity : Option String)
    (attributes : Fields) (stage : String) (now : Instant) : Item where
  id
  team := w.team
  workflowVersion := w.version
  status := w.initialStatus
  complexity
  attributes
  history := [⟨w.initialStatus, stage, now, none⟩]
  createdAt := some now
  updatedAt := some now

end Stageflow
