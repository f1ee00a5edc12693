import Stageflow.Workflow.Validation

/-!
# Workflows

A workflow is a compiled document: a version of a team's lifecycle that passed validation, with its
table of moves. Items are bound to one.
-/

namespace Stageflow

/-- A version of a team's lifecycle. -/
structure Workflow where
  team : String
  version : Int
  name : Json
  description : Json
  sourceVersion : Json
  initialStatus : String
  stages : List Stage
  statuses : List Status
  transitions : List Transition
  levels : List Level
  rules : List Rule
  thresholds : List Threshold
  edges : Edges
  warnings : List String
  deriving Repr

/-- Why a status has no stage. -/
inductive StageFault where
  | unknownStatus (status team : String)
  | unknownStage (status stage : String)
  deriving DecidableEq, Repr

/-- The wording of a fault. -/
def StageFault.message : StageFault → String
  | .unknownStatus status team => s!"Unknown status '{status}' for team '{team}'"
  | .unknownStage status stage => s!"Status '{status}' references unknown stage '{stage}'"

namespace Workflow

/-- The stage of an id. -/
def stage? (w : Workflow) (id : String) : Option Stage := w.stages.find? (·.id = id)

/-- The status of an id; of a repeated id the last one counts. -/
def status? (w : Workflow) (id : String) : Option Status := w.statuses.reverse.find? (·.id = id)

/-- The stage that a status belongs to. -/
def stageOf (w : Workflow) (status : String) : Except StageFault Stage :=
  match w.status? status with
  | none => .error (.unknownStatus status w.team)
  | some s =>
    match w.stage? s.stage with
    | none => .error (.unknownStage status s.stage)
    | some stage => .ok stage

/-- The place of a stage in the order of the stages. -/
def stagePosition? (w : Workflow) (id : String) : Option Nat := w.stages.findIdx? (·.id = id)

/-- The level of an id; no id has no level. -/
def level? (w : Workflow) (id : Option String) : Option Level :=
  id.bind fun id => w.levels.find? (·.id = id)

/-- The first level that covers a weight. -/
def levelForWeight (w : Workflow) (weight : Json) : Except Defect (Option Level) :=
  w.levels.findM? fun level => level.covers weight

/-- The status by which a stage is entered: the one it names, else its first one. -/
def entryStatus? (w : Workflow) (stage : String) : Option String :=
  match w.stage? stage with
  | none => none
  | some s =>
    match s.entryStatus with
    | .str status => if status.isEmpty then none else some status
    | _ => none
    |>.orElse fun _ => (w.statuses.find? (·.stage = stage)).map (·.id)

/-- The destinations of a status, by code point. -/
def destinations (w : Workflow) (status : String) : List String := w.edges.destinations status

/-- Whether a move is allowed. -/
def allows (w : Workflow) (source target : String) : Bool := w.edges.allows source target

/-- The statuses of some stages, by code point. -/
def statusesIn (w : Workflow) (stages : List String) : List String :=
  Text.sortedSet ((w.statuses.filter fun s => stages.contains s.stage).map (·.id))

end Workflow

/-- Why a document is not compiled: its issues, or a defect that ended the reading. -/
inductive CompileFault where
  | invalid (issues : List ValidationIssue)
  | defect (d : Defect)
  deriving Repr

/-- Compiles a merged document to a version of its team's workflow. -/
def MergedDocument.compile (document : MergedDocument) (version : Int) :
    Except CompileFault Workflow := do
  let (parsed, notes) ← (ParsedDocument.ofMerged document).mapError .defect
  let verdict ← parsed.validate.mapError .defect
  let issues := notes.issues ++ verdict.issues
  match issues.all (·.isWarning), verdict.initial with
  | true, some initial =>
    return {
      team := document.team, version
      name := document.name, description := document.description
      sourceVersion := document.version, initialStatus := initial
      stages := parsed.stages, statuses := parsed.statuses, transitions := parsed.transitions
      levels := parsed.levels, rules := parsed.rules, thresholds := parsed.thresholds
      edges := parsed.edges
      warnings := issues.map (·.line) }
  | _, _ => throw (.invalid issues)

end Stageflow
