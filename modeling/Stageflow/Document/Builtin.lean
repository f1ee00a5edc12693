import Stageflow.Document.Team

/-!
# Built-in documents

The template `default`, a small development lifecycle, and the fragment `progressive-rollout`, a
rollout stage behind a health watch.
-/

namespace Stageflow.Builtin

/-- An object with text values. -/
def texts (fields : List (String × String)) : Json :=
  .obj (fields.map fun p => (p.1, .str p.2))

/-- A stage with an id, a name and a description, and further fields. -/
def stage (id name description : String) (more : Fields := []) : Json :=
  .obj ([("id", .str id), ("name", .str name), ("description", .str description)] ++ more)

/-- A status with an id, a stage, a name and a colour. -/
def status (id stageId name color : String) : Json :=
  texts [("id", id), ("stage_id", stageId), ("name", name), ("color", color)]

/-- A transition without an id. -/
def move (source : String) (targets : List String) : Json :=
  .obj [("from", .str source), ("to", Json.strings targets)]

/-- A transition with an id. -/
def namedMove (id source : String) (targets : List String) : Json :=
  .obj [("id", .str id), ("from", .str source), ("to", Json.strings targets)]

/-- A complexity level with a range of points, and further fields. -/
def level (id name : String) (low high : Int) (more : Fields := []) : Json :=
  .obj ([("id", .str id), ("name", .str name), ("points", .arr [.int low, .int high])] ++ more)

/-- The template of a development lifecycle. -/
def defaultTemplate : Fields := [
  ("team", texts [("id", "default"), ("name", "Default Team"),
    ("description", "Default idea development lifecycle")]),
  ("version", .str "1.0"),
  ("initial_status", .str "triage"),
  ("stages", .arr [
    stage "triage" "Triage" "New ideas awaiting review",
    stage "backlog" "Backlog" "Accepted but not yet planned",
    stage "unstarted" "Unstarted" "Planned and ready to pick up",
    stage "started" "Started" "Under active development"
      [("exit_criteria", Json.strings ["tests_passing"])],
    stage "completed" "Completed" "Delivered" [("terminal", .bool true)],
    stage "canceled" "Canceled" "Dropped before delivery"
      [("terminal", .bool true), ("required", .bool false)]]),
  ("statuses", .arr [
    status "triage" "triage" "Triage" "#6B7280",
    status "backlog" "backlog" "Backlog" "#9CA3AF",
    status "todo" "unstarted" "Todo" "#3B82F6",
    status "in-dev" "started" "In Development" "#8B5CF6",
    status "done" "completed" "Done" "#22C55E",
    status "canceled" "canceled" "Canceled" "#EF4444"]),
  ("transitions", .arr [
    move "triage" ["backlog", "canceled"],
    move "backlog" ["todo", "canceled"],
    move "todo" ["in-dev", "canceled"],
    move "in-dev" ["done", "todo", "canceled"]]),
  ("complexity", .arr [
    level "small" "Small" 0 2 [("skip_stages", Json.strings ["backlog"])],
    level "medium" "Medium" 3 8,
    level "large" "Large" 9 100
      [("require_approval", .arr [
        .obj [("stage", .str "started"), ("roles", Json.strings ["tech-lead"])]])]]),
  ("automation", .arr [
    .obj [
      ("id", .str "record-delivery"),
      ("trigger", .str "transition"),
      ("to", .str "done"),
      ("actions", .arr [
        texts [("type", "create_node"), ("node_type", "delivery")],
        texts [("type", "create_edge"), ("edge_type", "delivered")]])]]),
  ("metrics", .arr [
    .obj [("id", .str "slow-development"), ("metric", .str "stage_duration"),
      ("stage", .str "started"), ("threshold", .int 336)]])]

/-- The fragment of a staged release. -/
def progressiveRollout : Json := .obj [
  ("stages", .arr [
    stage "rollout" "Rollout" "Staged release behind a health watch" [("required", .bool false)]]),
  ("statuses", .arr [
    status "rolling-out" "rollout" "Rolling Out" "#F59E0B",
    status "rolled-back" "rollout" "Rolled Back" "#F97316"]),
  ("transitions", .arr [
    move "in-dev" ["rolling-out", "done", "todo", "canceled"],
    namedMove "rollout-progress" "rolling-out" ["done", "rolled-back"],
    namedMove "rollout-recovery" "rolled-back" ["in-dev", "rolling-out"]]),
  ("automation", .arr [
    .obj [
      ("id", .str "promote-after-healthy-hour"),
      ("trigger", .str "transition"),
      ("to", .str "rolling-out"),
      ("duration", .str "1h"),
      ("break_on", Json.strings ["alert_fired"]),
      ("actions", .arr [texts [("type", "auto_transition"), ("to", "done")]]),
      ("on_break", .arr [
        texts [("type", "rollback"), ("to", "rolled-back")],
        texts [
          ("type", "notify"),
          ("channel", "\x7bteam\x7d-releases"),
          ("message", "Rollout of \x7bitem_id\x7d rolled back after \x7bevent\x7d"),
          ("severity", "warning")]])]])]

/-- The built-in documents by name. -/
def templates : Table String TeamDocument :=
  match TeamDocument.ofFields defaultTemplate with
  | .ok document => [("default", document)]
  | .error _ => []

/-- The built-in fragments by name. -/
def fragments : Fields := [("progressive-rollout", progressiveRollout)]

end Stageflow.Builtin
