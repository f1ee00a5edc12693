import Stageflow.Fault
import Stageflow.Item.Gate

/-!
# Routes to a status

Where a requested move leads. A request names a status that the table of moves has to allow, or asks
for the next stage: the first later stage that is required and not skipped. It is entered directly,
or over the entry statuses of the stages that are passed over.
-/

namespace Stageflow

/-- Whether a stage has to be visited by items of a level. -/
def Stage.requiredFor (stage : Stage) (level : Option Level) : Bool :=
  stage.required || level.any fun l => l.requiredStages.contains stage.id

/-- Whether an item of a level skips a stage. -/
def Stage.skippedBy (stage : Stage) (level : Option Level) (attributes : Fields) :
    Except Defect Bool :=
  if level.any fun l => l.requiredStages.contains stage.id then .ok false
  else if level.any fun l => l.skipStages.contains stage.id then .ok true
  else
    match stage.skipIf with
    | none => .ok false
    | some predicate => predicate.holds attributes

/-- The table of moves with only some statuses as destinations. -/
def Edges.onto (edges : Edges) (waypoints : List String) : Edges :=
  edges.map fun p => (p.1, p.2.filter waypoints.contains)

/-- Whether a chain of moves leads from a status to a goal over some waypoints only. -/
def Edges.leadsOver (edges : Edges) (waypoints : List String) (start goal : String) : Bool :=
  ((edges.onto waypoints).reachable start).any fun s => edges.allows s goal

/-- Where a request leads: the status, and the stages that are skipped on the way. -/
structure Route where
  target : String
  skipped : List String := []
  deriving DecidableEq, Repr

/-- The next stage that an item visits, with the stages passed over and those of them skipped. -/
structure Ahead where
  stage : Option Stage := none
  passed : List String := []
  skipped : List String := []

/-- Looks ahead over the stages behind the current one. -/
def Ahead.look (level : Option Level) (attributes : Fields) : List Stage → Except Defect Ahead
  | [] => .ok {}
  | stage :: rest =>
    if !stage.requiredFor level then do
      let ahead ← look level attributes rest
      return { ahead with passed := stage.id :: ahead.passed }
    else do
      if ← stage.skippedBy level attributes then
        let ahead ← look level attributes rest
        return { ahead with
          passed := stage.id :: ahead.passed, skipped := stage.id :: ahead.skipped }
      else return { stage := some stage }

namespace Workflow

/-- The stages behind a stage, which has to have a place among them. -/
def stagesAfter (w : Workflow) (stage : String) : Except Defect (List Stage) :=
  match w.stagePosition? stage with
  | some i => .ok (w.stages.drop (i + 1))
  | none => .error (.missing stage)

/-- The route to a named status. -/
def routeTo (w : Workflow) (item : Item) (status : String) : Except Fault Route :=
  if (w.status? status).isNone then .error (.illegal item.id item.status status "unknown status")
  else if w.allows item.status status then .ok { target := status }
  else .error (.illegal item.id item.status status none)

/-- The route to the next stage. -/
def routeAhead (w : Workflow) (item : Item) : Except Fault Route := do
  let current ← (w.stageOf item.status).mapError .statusPlace
  let behind ← (w.stagesAfter current.id).mapError .defect
  let ahead ← (Ahead.look (w.level? item.complexity) item.attributes behind).mapError .defect
  match ahead.stage.bind fun stage => w.entryStatus? stage.id with
  | none => throw (.illegal item.id item.status nextStage "no next required stage")
  | some target =>
    let waypoints := ahead.passed.filterMap w.entryStatus?
    if w.allows item.status target || w.edges.leadsOver waypoints item.status target then
      return { target, skipped := ahead.skipped }
    else throw (.illegal item.id item.status target none)

/-- Why a value that is no text is no target: it cannot be looked up, it cannot be written where it
has to be named, or it is no status. -/
def noTarget (item : Item) (value : Json) : Fault :=
  if !value.isKey then .defect (.unhashable value.kindName)
  else if !value.isWritable then .defect .unwritable
  else .illegal item.id item.status value.display "unknown status"

/-- The route that a request asks for. -/
def route (w : Workflow) (item : Item) (target : Json) : Except Fault Route :=
  match target with
  | .str s => if s = nextStage then w.routeAhead item else w.routeTo item s
  | value => .error (noTarget item value)

end Workflow

end Stageflow
