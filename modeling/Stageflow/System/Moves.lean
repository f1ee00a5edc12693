import Stageflow.System.State

/-!
# Operations on stored items

Creating, moving, signing off, setting criteria and rebinding. Each change of an item is made under
its lock, from the item as it was loaded; a write that finds another version stored is a conflict.
Moves are announced after the lock is released, by the computation that is passed in.
-/

namespace Stageflow

namespace Run

/-- The loaded item, and the items once a rival that waits for it has written it first. -/
def overtake (s : System) (id : String) (item : Item) : System :=
  if s.rival = some id then
    let stored := { item with version := item.version + 1 }
    { s with
      rival := none, items := s.items.put id stored, journal := .saved stored :: s.journal }
  else s

/-- Loads an item. -/
def loadItem (id : String) : Run Item := do
  let s ← get
  let item ← ofExcept (s.items.load id)
  set (overtake s id item)
  return item

/-- Writes an item that was loaded at a version. -/
def writeItem (item : Item) (expected : Int) : Run Item := do
  let s ← get
  match s.items.save item expected with
  | .ok (stored, items) =>
    set { s with items }
    note (.saved stored)
    return stored
  | .error (.stale id expected actual) => raise (.overtaken id expected actual)
  | .error fault => raise fault

/-- Takes the lock of an item. -/
def acquire (id : String) : Run Unit := do
  let s ← get
  if s.settings.waitsTooLong then raise .waitTooLong
  else if id ∈ s.held then raise (.busy id)
  else set { s with held := id :: s.held }

/-- Gives the lock of an item back. -/
def release (id : String) : Run Unit :=
  modify fun s => { s with held := s.held.erase id }

/-- Runs a computation under the lock of an item, which is given back if it fails, too. -/
def underLock {α : Type} (id : String) (action : Run α) : Run α := do
  acquire id
  let result ← attempt action
  release id
  ofExcept result

/-- The workflow that an item is bound to. -/
def workflowOf (item : Item) : Run Workflow := do
  ofExcept ((← get).registry.version item.team item.workflowVersion)

/-! ## Creation -/

/-- What a new item is asked to be. -/
structure NewItem where
  team : String
  id : Option String := none
  complexity : Option String := none
  weight : Json := .null
  attributes : Fields := []
  actor : Actor := {}

/-- The level of a new item: the named one, else the first one that covers its weight. -/
def levelFor (w : Workflow) (request : NewItem) : Run (Option String) :=
  match request.complexity, request.weight with
  | some level, _ =>
    if (w.level? level).isNone then raise (.unknownLevel level request.team) else pure (some level)
  | none, .null => pure none
  | none, weight => do return (← ofReading (w.levelForWeight weight)).map (·.id)

/-- The given id, or a new one where it is missing or empty. -/
def idFor (given : Option String) : Run String :=
  match given with
  | some id => if id.isEmpty then newId else pure id
  | none => newId

/-- Creates an item at the initial status of its team's active workflow. -/
def createItem (announce : Event → Run Unit) (request : NewItem) : Run Item := do
  let w ← ofExcept ((← get).registry.activeFor request.team)
  let complexity ← levelFor w request
  let now := (← get).clock
  let stage ← ofExcept ((w.stageOf w.initialStatus).mapError .statusPlace)
  let id ← idFor request.id
  let (item, items) ←
    ofExcept ((← get).items.create (w.newItem id complexity request.attributes stage.id now))
  modify fun s => { s with items }
  let event : Moved := {
    item := id, team := request.team, workflowVersion := w.version
    source := none, target := w.initialStatus, sourceStage := none, targetStage := stage.id
    actor := request.actor.name, time := now, depth := request.actor.depth }
  note (.created event)
  announce (.moved event)
  return item

/-! ## Moves -/

/-- A committed move. -/
structure Passage where
  move : Move
  requested : Json
  event : Moved
  item : Item

/-- Decides a requested move of a loaded item and writes it. -/
def commitMove (id : String) (target : Json) (actor : Actor) : Run Passage := do
  let item ← loadItem id
  let w ← workflowOf item
  let move ← ofExcept (w.decide item target)
  let now := (← get).clock
  let stored ← writeItem (item.moveTo move.route.target move.target.id now) item.version
  let event : Moved := {
    item := id, team := item.team, workflowVersion := item.workflowVersion
    source := some item.status, target := move.route.target
    sourceStage := some move.source.id, targetStage := move.target.id
    actor := actor.name, time := now, depth := actor.depth }
  note (.committed item event)
  return ⟨move, target, event, stored⟩

/-- Moves an item to a status, or to the next stage. -/
def moveItem (announce : Event → Run Unit) (id : String) (target : Json) (actor : Actor) :
    Run Passage := do
  let passage ← underLock id (commitMove id target actor)
  announce (.moved passage.event)
  return passage

/-- The destinations that an item could move to. -/
def choicesOf (id : String) : Run (List Workflow.Choice) := do
  let item ← loadItem id
  ofExcept ((← workflowOf item).choices item)

/-! ## Sign-offs, criteria and versions -/

/-- The gate of a stage for an item; without one, or with an empty one, that of its own stage. -/
def gateOf (id : String) (stage : Option String) : Run Gate := do
  let item ← loadItem id
  let w ← workflowOf item
  match stage.filter fun s => !s.isEmpty with
  | some stage => return w.gate item stage
  | none => return w.gate item (← ofExcept ((w.stageOf item.status).mapError .statusPlace)).id

/-- Records a sign-off. A role that has signed off stays as it is. -/
def signOff (id stage role : String) (approver : Json) : Run Gate :=
  underLock id do
    let item ← loadItem id
    let w ← workflowOf item
    match ← ofExcept (w.signOff item stage role approver (← get).clock) with
    | some signed => return w.gate (← writeItem signed item.version) stage
    | none => return w.gate item stage

/-- Records whether a criterion is met. -/
def setCriterion (id criterion : String) (satisfied : Json) : Run Item :=
  underLock id do
    let item ← loadItem id
    match item.setCriterion criterion satisfied (← get).clock with
    | some changed => writeItem changed item.version
    | none => return item

/-- Binds an item to a version of its team's workflow, or to the active one. -/
def migrate (id : String) (version : Option Int) : Run Item :=
  underLock id do
    let item ← loadItem id
    let registry := (← get).registry
    let w ← ofExcept (match version with
      | some version => registry.version item.team version
      | none => registry.activeFor item.team)
    match ← ofExcept (w.rebind item (← get).clock) with
    | none => return item
    | some rebound =>
      match item.complexity, rebound.complexity with
      | some level, none => note (.levelCleared id level w.version)
      | _, _ => pure ()
      writeItem rebound item.version

end Run

end Stageflow
