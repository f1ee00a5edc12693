import Stageflow.Record.Workflow

/-!
# Items, events and watches as values

How the state of a running system and its results are written out as JSON, and what changed in it
from one state to the next.
-/

namespace Stageflow

/-- An instant as a value. -/
def Instant.toJson (t : Instant) : Json := .str t.toText

/-- A stay as a value. -/
def Stay.toJson (s : Stay) : Json := .obj [
  ("status", .str s.status), ("stage", .str s.stage), ("entered_at", s.enteredAt.toJson),
  ("exited_at", Json.option Instant.toJson s.exitedAt)]

/-- Sign-offs as a value. -/
def SignOffs.toJson (signOffs : SignOffs) : Json := .obj (signOffs.map fun p => (p.1, .obj p.2))

/-- An item as a value. -/
def Item.toJson (i : Item) : Json := .obj [
  ("id", .str i.id), ("team_id", .str i.team), ("config_version", .int i.workflowVersion),
  ("status", .str i.status), ("complexity", .ofText? i.complexity),
  ("attributes", .obj i.attributes), ("criteria", .obj i.criteria),
  ("signoffs", SignOffs.toJson i.signOffs), ("history", Json.list Stay.toJson i.history),
  ("version", .int i.version), ("created_at", Json.option Instant.toJson i.createdAt),
  ("updated_at", Json.option Instant.toJson i.updatedAt)]

/-- A gate as a value. -/
def Gate.toJson (g : Gate) : Json := .obj [
  ("stage", .str g.stage), ("required_roles", Json.strings g.required),
  ("missing_roles", Json.strings g.missing), ("satisfied", .bool g.isOpen)]

/-- A choice as a value. -/
def Workflow.Choice.toJson (c : Workflow.Choice) : Json := .obj [
  ("to", .str c.target), ("stage", .str c.stage), ("crosses_stage", .bool c.crosses),
  ("missing_roles", Json.strings c.missingRoles),
  ("unmet_criteria", Json.strings c.unmetCriteria), ("ready", .bool c.ready)]

/-- A move as a value. -/
def Moved.toJson (m : Moved) : Json := .obj [
  ("type", .str "transition"), ("item_id", .str m.item), ("team_id", .str m.team),
  ("config_version", .int m.workflowVersion), ("from_status", .ofText? m.source),
  ("to_status", .str m.target), ("from_stage", .ofText? m.sourceStage),
  ("to_stage", .str m.targetStage), ("actor", .str m.actor),
  ("occurred_at", m.time.toJson), ("depth", .int m.depth)]

/-- A signal as a value. -/
def Signal.toJson (s : Signal) : Json := .obj [
  ("type", .str s.type), ("item_id", .ofText? s.item), ("team_id", .ofText? s.team),
  ("payload", .obj s.payload), ("occurred_at", Json.option Instant.toJson s.time),
  ("depth", .int s.depth)]

/-- An event as a value. -/
def Event.toJson : Event → Json
  | .moved m => m.toJson
  | .signal s => s.toJson

/-- A watch as a value. -/
def Watch.toJson (w : Watch) : Json := .obj [
  ("item_id", .str w.item), ("team_id", .str w.team), ("rule_id", .str w.rule),
  ("config_version", .int w.workflowVersion), ("armed_status", .str w.status),
  ("armed_at", w.armedAt.toJson), ("due_at", w.dueAt.toJson),
  ("trigger", .str w.trigger.type)]

/-- An outcome as a value. -/
def Outcome.toJson (o : Outcome) : Json := .obj [
  ("action", .str o.action.name), ("ok", .bool o.ok), ("detail", .str o.detail),
  ("error", .ofText? o.error)]

/-- A promoted watch as a value. -/
def Run.Fired.toJson (f : Run.Fired) : Json := .obj [
  ("watch", f.watch.toJson), ("outcomes", Json.list Outcome.toJson f.outcomes)]

/-- A committed move as a value. -/
def Run.Passage.toJson (p : Run.Passage) : Json := .obj [
  ("item_id", .str p.event.item), ("from_status", .ofText? p.event.source),
  ("to_status", .str p.event.target), ("requested", p.requested),
  ("skipped_stages", Json.strings p.move.route.skipped),
  ("warnings", Json.strings p.move.warnings),
  ("event", .arr [.ofText? p.event.source, .str p.event.target, .str p.event.actor,
    .int p.event.depth]),
  ("saved", .arr [.str p.item.status, .int p.item.version, .int p.item.history.length])]

/-- The flow of a team as a value. -/
def Metrics.Summary.toJson (s : Metrics.Summary) : Json := .obj [
  ("team_id", .str s.team), ("items", .int s.items), ("throughput", .int s.throughput),
  ("avg_cycle_time_hours", .ofReal? s.cycleTime), ("avg_loop_back_rate", .ofReal? s.loopBackRate),
  ("transitions", .int s.transitions)]

/-- A node as a value. -/
def Node.toJson (n : Node) : Json := .obj [
  ("id", .str n.id), ("type", n.type), ("linked_item_id", .str n.item)]

/-- An edge of the knowledge graph as a value. -/
def Link.toJson (l : Link) : Json := .obj [
  ("from_status", l.source), ("to_status", l.target), ("edge_type", l.type)]

/-- A notification as a value. -/
def Notification.toJson (n : Notification) : Json := .obj [
  ("channel", n.channel), ("message", n.message), ("severity", n.severity)]

/-- A created document as a value. -/
def CreatedDocument.toJson (d : CreatedDocument) : Json := .obj [
  ("template_id", d.template), ("path", d.path), ("template_vars", .obj d.bindings)]

/-! ## Changes -/

/-- The state of an item in short. -/
def Item.digest (i : Item) : Json :=
  .arr [.str i.status, .int i.version, .int i.workflowVersion, .ofText? i.complexity]

/-- Everything a change is looked for in. -/
structure Snapshot where
  items : Fields
  watches : List Json
  nodes : List Json
  links : List Json
  sent : List Json
  documents : List Json
  assignments : Fields
  events : List Json
  alerts : List Json

/-- The snapshot of a system. -/
def System.snapshot (s : System) : Snapshot where
  items := s.items.map fun p => (p.1, p.2.digest)
  watches := ((s.automation.watches.listed none).toOption.getD []).map Watch.toJson
  nodes := s.records.nodes.map Node.toJson
  links := s.records.links.map Link.toJson
  sent := s.records.sent.map Notification.toJson
  documents := s.records.documents.map CreatedDocument.toJson
  assignments := s.records.assignments
  events := s.dispatcher.received.map Event.toJson
  alerts := s.alerts.map Signal.toJson

/-- Fields whose value is not what it was; a missing one was null. -/
def Fields.changes (old new : Fields) : Fields :=
  new.filter fun p => !(old.getOrNull p.1).alike p.2

/-- Whether fields are what they were. -/
def Fields.alike (old new : Fields) : Bool := (Json.obj old).alike (.obj new)

/-- What changed from one snapshot to the next. -/
def Snapshot.changes (old new : Snapshot) : Fields :=
  let appended (name : String) (before after : List Json) : Fields :=
    if after.length ≤ before.length then [] else [(name, .arr (after.drop before.length))]
  (if old.items.alike new.items then [] else [("items", .obj (old.items.changes new.items))]) ++
    (if (Json.arr old.watches).alike (.arr new.watches) then [] else
      [("watches", .arr new.watches)]) ++
    appended "nodes" old.nodes new.nodes ++ appended "edges" old.links new.links ++
    appended "sent" old.sent new.sent ++ appended "documents" old.documents new.documents ++
    (if old.assignments.alike new.assignments then [] else
      [("assignments", .obj (old.assignments.changes new.assignments))]) ++
    appended "events" old.events new.events ++ appended "alerts" old.alerts new.alerts

end Stageflow
