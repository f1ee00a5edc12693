import Stageflow.Automation.Watch
import Stageflow.Fault
import Stageflow.Item.Basic
import Stageflow.Settings

/-!
# Notices

What a running system takes note of, newest first in its journal. Some notices are printed as log
lines; the others say how items moved, which rules and actions ran and which moves they asked for,
what was delivered to whom and what became of watches, so that a run can be told from its journal.
-/

namespace Stageflow

/-- The weight of a printed notice. -/
inductive Severity where
  | warning
  | error
  deriving DecidableEq, Repr

/-- The word for a severity. -/
def Severity.word : Severity → String
  | .warning => "WARNING"
  | .error => "ERROR"

/-- Something worth a note. -/
inductive Notice where
  | resolutionFailed (team : String) (issues : Nat)
  | validationFailed (team : String) (errors : Nat)
  | quality (team warning : String)
  | notActivated (team : String) (fault : Fault)
  | teamsFailed (teams : List String)
  | settingsUnread (file : String) (fault : Fault)
  | settingsShape (file : String)
  | badSetting (file : String) (problem : Settings.Problem)
  | fragmentUnread (file : String) (fault : Fault)
  | fragmentShape (file : String)
  | teamUnread (file : String) (fault : Fault)
  | levelCleared (item level : String) (version : Int)
  | dropped (event : Event) (limit : Int)
  | unaddressed (type : String)
  | unknownItem (type item : String)
  | watchDiscarded (rule item : String)
  | hookFailed (hook : String)
  | evaluatorRunning
  | tickFailed
  | subscriberFailed (name type : String)
  | subscriberOverdue (name type : String) (budget : Binary64)
  | actionTimedOut (action : ActionType) (rule : String) (budget : Binary64)
  | actionFailed (action : ActionType) (rule : String)
  | alertSinkFailed (item : String)
  | asked (item : String) (target : Json) (actor : Actor)
  | created (move : Moved)
  | committed (item : Item) (move : Moved)
  | saved (item : Item)
  | delivered (subscriber : Subscriber) (event : Event)
  | handled (event : Event)
  | armed (watch : Watch)
  | left (watch : Watch)
  | broken (watch : Watch) (event : Signal)
  | disarmed (watch : Watch)
  | ruleless (watch : Watch)
  | collected (watches : List Watch) (time : Instant)
  | promoted (watch : Watch) (time : Instant)
  | fired (watch : Watch)
  | ran (rule : Rule) (item : String) (event : Event)
  | began (action : ActionType) (rule : String) (depth : Int)
  | ended (action : ActionType) (rule : String)
  deriving Repr

namespace Notice

/-- The severity, the source and the text of a printed notice. `name` names a fault. -/
def print? (name : Fault → String) : Notice → Option (Severity × String × String)
  | .resolutionFailed team n =>
    some (.warning, "resolver", s!"Resolution failed for team {team}: {n} issue(s)")
  | .validationFailed team n =>
    some (.warning, "validator", s!"Validation failed for team {team}: {n} error(s)")
  | .quality team warning => some (.warning, "validator", s!"Quality: team {team}: {warning}")
  | .notActivated team fault =>
    some (.error, "registry", s!"Config for team {team} not activated: {name fault}")
  | .teamsFailed teams =>
    some (.warning, "core",
      s!"{teams.length} team config(s) failed to activate: " ++ Text.commas (Text.sorted teams))
  | .settingsUnread file fault =>
    some (.warning, "config", s!"Failed to read {file}, using defaults: {name fault}")
  | .settingsShape file =>
    some (.warning, "config", s!"{file} must contain a JSON object, using defaults")
  | .badSetting file problem => some (.warning, "config", problem.message file)
  | .fragmentUnread file fault =>
    some (.warning, "registry", s!"Skipping invalid fragment file {file}: {name fault}")
  | .fragmentShape file =>
    some (.warning, "registry", s!"Skipping fragment file {file}: must contain a list or object")
  | .teamUnread file fault =>
    some (.warning, "registry", s!"Skipping invalid team file {file}: {name fault}")
  | .levelCleared item level version =>
    some (.warning, "engine",
      s!"Item {item}: complexity '{level}' not in version {version}, clearing")
  | .dropped event limit =>
    let (type, item, depth) := (event.type, event.item?.getD "None", event.depth)
    some (.warning, "automation",
      s!"Dropping {type} event for item {item}: automation cascade depth {depth} exceeds {limit}")
  | .unaddressed type =>
    some (.warning, "automation", s!"Ignoring {type} event with neither item nor team")
  | .unknownItem type item =>
    some (.warning, "automation", s!"Ignoring {type} event for unknown item {item}")
  | .watchDiscarded rule item =>
    some (.warning, "automation", s!"Discarding watch {rule}: item {item} no longer exists")
  | .hookFailed hook => some (.error, "automation", s!"Tick hook {hook} failed")
  | .evaluatorRunning => some (.warning, "automation", "Automation evaluator already running")
  | .tickFailed => some (.error, "automation", "Automation tick failed")
  | .subscriberFailed subscriber type =>
    some (.warning, "events", s!"Subscriber {subscriber} failed on {type} event")
  | .subscriberOverdue subscriber type budget =>
    some (.warning, "events",
      s!"Subscriber {subscriber} exceeded {budget.fixedText 2}s budget on {type} event; abandoned")
  | .actionTimedOut action rule budget =>
    some (.warning, "actions",
      s!"Action {action.name} of rule {rule} timed out after {budget.fixedText 2}s")
  | .actionFailed action rule =>
    some (.warning, "actions", s!"Action {action.name} of rule {rule} failed")
  | .alertSinkFailed item => some (.error, "metrics", s!"Alert sink failed for item {item}")
  | .asked .. | .created _ | .committed .. | .saved _ | .delivered .. | .handled _ | .armed _
  | .left _ | .broken .. | .disarmed _ | .ruleless _ | .collected .. | .promoted .. | .fired _
  | .ran .. | .began .. | .ended .. => none

/-- The log line of a printed notice. -/
def line? (name : Fault → String) (notice : Notice) : Option String :=
  (notice.print? name).map fun (severity, part, text) =>
    s!"{severity.word} idlc.{part}: {text}"

end Notice

end Stageflow
