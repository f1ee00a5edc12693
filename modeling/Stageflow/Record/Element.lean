import Stageflow.Document.Resolution
import Stageflow.Element.Level
import Stageflow.Element.Rule
import Stageflow.Element.Stage
import Stageflow.Element.Threshold

/-!
# Elements and documents as values

How elements and documents are written out as JSON: every field under its published name.
-/

namespace Stageflow

/-- A number, or null. -/
def Json.ofReal? : Option Binary64 → Json
  | some x => .real x
  | none => .null

/-- A list of values. -/
def Json.list {α : Type} (toJson : α → Json) (xs : List α) : Json := .arr (xs.map toJson)

/-- A value, or null. -/
def Json.option {α : Type} (toJson : α → Json) : Option α → Json
  | some x => toJson x
  | none => .null

namespace Predicate

/-- A predicate as a value. -/
def toJson (p : Predicate) : Json := .obj [
  ("attribute", p.subject), ("op", .str p.operator.name), ("value", p.operand.toJson)]

end Predicate

namespace Stage

/-- A stage as a value. -/
def toJson (s : Stage) : Json := .obj [
  ("id", .str s.id), ("name", s.name), ("description", s.description),
  ("required", .bool s.required), ("terminal", .bool s.terminal),
  ("skip_if", Json.option Predicate.toJson s.skipIf),
  ("entry_criteria", Json.strings s.entryCriteria),
  ("exit_criteria", Json.strings s.exitCriteria),
  ("enforcement", .str s.enforcement.name), ("entry_status", s.entryStatus)]

end Stage

namespace Status

/-- A status as a value. -/
def toJson (s : Status) : Json := .obj [
  ("id", .str s.id), ("stage_id", .str s.stage), ("name", s.name),
  ("description", s.description), ("color", s.color)]

end Status

namespace Transition

/-- A transition as a value. -/
def toJson (t : Transition) : Json := .obj [
  ("key", .str t.key), ("from_status", .str t.source),
  ("to_statuses", Json.strings t.targets), ("except_statuses", Json.strings t.exceptions)]

end Transition

namespace Level

/-- A level as a value. -/
def toJson (l : Level) : Json := .obj [
  ("id", .str l.id), ("name", l.name),
  ("points", Json.option (fun p => .arr [.real p.1, .real p.2]) l.points),
  ("skip_stages", Json.strings l.skipStages),
  ("required_stages", Json.strings l.requiredStages),
  ("require_approval",
    Json.list (fun a => .obj [("stage", a.stage), ("roles", Json.strings a.roles)]) l.approvals)]

end Level

namespace Action

/-- An action as a value. -/
def toJson (a : Action) : Json := .obj [("type", .str a.type.name), ("params", .obj a.params)]

end Action

namespace Rule

/-- A rule as a value. -/
def toJson (r : Rule) : Json := .obj [
  ("id", .str r.id), ("trigger", .str r.trigger),
  ("from_statuses", Json.strings r.sources), ("to_status", .ofText? r.target),
  ("duration", .ofReal? r.duration), ("break_on", Json.strings r.breakOn),
  ("actions", Json.list Action.toJson r.actions),
  ("on_break", Json.list Action.toJson r.onBreak)]

end Rule

namespace Threshold

/-- A threshold as a value. -/
def toJson (t : Threshold) : Json := .obj [
  ("id", .str t.id), ("metric", .str t.metric.name), ("threshold", .real t.limit),
  ("stage", t.stage)]

end Threshold

/-- Sections as a value. -/
def Sections.toJson (sections : Sections) : Json :=
  .obj (Section.all.map fun s => (s.name, .arr (PerSection.of sections s)))

/-- A team document as a value. -/
def TeamDocument.toJson (d : TeamDocument) : Json := .obj [
  ("id", .str d.id), ("name", d.name), ("description", d.description),
  ("version", .str d.version), ("extends", .ofText? d.base),
  ("initial_status", d.initialStatus), ("sections", Sections.toJson d.sections)]

/-- A merged document as a value. -/
def MergedDocument.toJson (d : MergedDocument) : Json := .obj [
  ("team_id", .str d.team), ("name", d.name), ("description", d.description),
  ("version", d.version), ("initial_status", d.initialStatus),
  ("sections", Sections.toJson d.sections), ("lineage", Json.strings d.lineage)]

end Stageflow
