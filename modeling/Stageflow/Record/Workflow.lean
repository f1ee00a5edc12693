import Stageflow.Record.Element
import Stageflow.System.Documents

/-!
# Workflows and reports as values

The full record of a workflow, the short description of it, issues, and the report of a check.
-/

namespace Stageflow

/-- An issue of resolution as a value. -/
def ResolutionIssue.toJson (i : ResolutionIssue) : Json := .obj [
  ("kind", .str i.kind), ("team", .str i.team), ("message", .str i.message)]

/-- An issue of validation as a value. -/
def ValidationIssue.toJson (i : ValidationIssue) : Json := .obj [
  ("kind", .str i.kind), ("severity", .str i.severity), ("message", .str i.message)]

/-- A table of moves as a value. -/
def Edges.toJson (edges : Edges) : Json := .obj (edges.map fun p => (p.1, Json.strings p.2))

namespace Workflow

/-- A workflow as a value. -/
def toJson (w : Workflow) : Json := .obj [
  ("team_id", .str w.team), ("version", .int w.version), ("name", w.name),
  ("description", w.description), ("source_version", w.sourceVersion),
  ("initial_status", .str w.initialStatus),
  ("stages", Json.list Stage.toJson w.stages),
  ("statuses", Json.list Status.toJson w.statuses),
  ("transitions", Json.list Transition.toJson w.transitions),
  ("complexity_levels", Json.list Level.toJson w.levels),
  ("rules", Json.list Rule.toJson w.rules),
  ("thresholds", Json.list Threshold.toJson w.thresholds),
  ("edges", Edges.toJson w.edges), ("warnings", Json.strings w.warnings)]

/-- A short description of a workflow. -/
def describe (w : Workflow) : Json := .obj [
  ("team_id", .str w.team), ("version", .int w.version), ("name", w.name),
  ("initial_status", .str w.initialStatus),
  ("stages", Json.list (fun (s : Stage) => .obj [
    ("id", .str s.id), ("name", s.name), ("required", .bool s.required),
    ("terminal", .bool s.terminal)]) w.stages),
  ("statuses", Json.list (fun (s : Status) => .obj [
    ("id", .str s.id), ("stage_id", .str s.stage), ("name", s.name)]) w.statuses),
  ("edges", .obj (Table.ofPairs (w.statuses.map fun s =>
    (s.id, Json.strings (w.destinations s.id))))),
  ("rules", Json.strings (w.rules.map (·.id))),
  ("warnings", Json.strings w.warnings)]

end Workflow

/-- The report of a check as a value. -/
def CheckReport.toJson (r : CheckReport) : Json := .obj [
  ("team", .str r.team), ("ok", .bool r.ok), ("lineage", Json.strings r.lineage),
  ("resolution_issues", Json.list (fun (i : ResolutionIssue) => .obj [
    ("kind", .str i.kind), ("message", .str i.message)]) r.resolutionIssues),
  ("validation_issues", Json.list ValidationIssue.toJson r.validationIssues)]

end Stageflow
