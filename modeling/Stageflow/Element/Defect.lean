import Stageflow.Json.Display
import Stageflow.Text.Identifier

/-!
# Defects of raw values

Why a raw value is not the element it should be. A `Defect` is a cause; `Defect.kind` sorts the
causes, and `Defect.message` words them.
-/

namespace Stageflow

/-- The sorts of defects: a value that is not admitted, a field that is missing, a value of a kind
that the reading cannot work on, a number out of range, a value without fields. -/
inductive DefectKind where
  | invalid
  | missing
  | mistyped
  | overflow
  | fieldless
  deriving DecidableEq, Repr

/-- What is wrong with a raw value. `what` names the element that is read, as messages do. -/
inductive Defect where
  | badId (what : String) (value : Json)
  | durationTruth (value : Json)
  | durationNegative (value : Json)
  | durationUnread (value : Json)
  | notText (what key : String)
  | predicateShape
  | predicateOp (op : String)
  | enforcement (stage op : String)
  | stageOfStatus (status : String)
  | sourceKind (kind : String)
  | noTargets (what : String)
  | exceptWithoutWildcard (what : String)
  | pointsShape (what : String)
  | approvalShape (what : String)
  | actionShape (value : Json)
  | actionType (type : String)
  | trigger (what : String)
  | ruleTarget (what : String)
  | breakWithoutDuration (what : String)
  | metric (threshold : String)
  | teamShape
  | sectionShape (team sect kind : String)
  | extendsShape (team : String)
  | numberText (text : String)
  | unwritable
  | missing (field : String)
  | noKey (sect : String)
  | numberKind (kind : String)
  | unhashable (kind : String)
  | notIterable (kind : String)
  | comparison
  | subscript
  | undefinedNumber
  | tooLarge
  | fieldless (kind : String)
  deriving Repr

namespace Defect

/-- The sort of a cause. -/
def kind : Defect → DefectKind
  | .missing _ | .noKey _ => .missing
  | .numberKind _ | .unhashable _ | .notIterable _ | .comparison | .subscript => .mistyped
  | .tooLarge => .overflow
  | .fieldless _ => .fieldless
  | _ => .invalid

/-- The operators of predicates, as messages list them. -/
def operatorNames : String := "['equals', 'exists', 'in', 'not_equals']"

/-- The types of actions, as messages list them. -/
def actionNames : String :=
  "['assign', 'auto_transition', 'create_document', 'create_edge', 'create_node', 'notify', " ++
    "'rollback']"

/-- The kinds of metrics, as messages list them. -/
def metricNames : String := "['cycle_time', 'loop_back_rate', 'stage_duration']"

/-- A wording that names a value: where that cannot be written, it is said instead. -/
def naming (value : Json) (wording : String) : String :=
  if value.isWritable then wording else Json.unwritable

/-- The wording of a cause. -/
def message : Defect → String
  | .badId what value =>
    naming value s!"Invalid {what} id {value.quoted}: must match {Text.identifierPattern}"
  | .durationTruth value => s!"Invalid duration {value.quoted}"
  | .durationNegative value =>
    naming value s!"Duration must not be negative, got {value.display}"
  | .durationUnread value =>
    naming value
      s!"Invalid duration {value.quoted}: use seconds or a string like '30m', '1h', '2d'"
  | .notText what key => s!"{what}: '{key}' must be a list of strings"
  | .predicateShape => "skip_if must be a dict with an 'attribute' key"
  | .predicateOp op => s!"Invalid predicate op '{op}': must be one of " ++ operatorNames
  | .enforcement stage op =>
    s!"Stage '{stage}': invalid enforcement '{op}' (must be 'soft' or 'hard')"
  | .stageOfStatus status => s!"Status '{status}': 'stage_id' is required"
  | .sourceKind kind => s!"Transition 'from' must be a string, got {kind}"
  | .noTargets what => s!"{what}: 'to' must list at least one status"
  | .exceptWithoutWildcard what => s!"{what}: 'except' is only valid on wildcard transitions"
  | .pointsShape what => s!"{what}: 'points' must be a [min, max] pair"
  | .approvalShape what => s!"{what}: require_approval entries need a 'stage'"
  | .actionShape value =>
    naming value s!"Action must be a dict with a 'type' key, got {value.quoted}"
  | .actionType type => s!"Invalid action type '{type}': must be one of " ++ actionNames
  | .trigger what => s!"{what}: 'trigger' must be a non-empty string"
  | .ruleTarget what => s!"{what}: 'to' must be a single status"
  | .breakWithoutDuration what => s!"{what}: 'break_on'/'on_break' require a 'duration'"
  | .metric threshold =>
    s!"Metric threshold '{threshold}': metric must be one of " ++ metricNames
  | .teamShape => "'team' must be a dict"
  | .sectionShape team sect kind => s!"Team '{team}': '{sect}' must be a list, got {kind}"
  | .extendsShape team => s!"Team '{team}': 'extends' must be a string"
  | .numberText text => s!"could not convert string to float: {Text.quoted text}"
  | .unwritable => Json.unwritable
  | .missing field => field
  | .noKey sect => s!"{sect}: element has no 'id'"
  | .numberKind kind => s!"float() argument must be a string or a real number, not '{kind}'"
  | .unhashable kind => s!"unhashable type: '{kind}'"
  | .notIterable kind => s!"'{kind}' object is not iterable"
  | .comparison => "values cannot be compared"
  | .subscript => "value has no fields"
  | .undefinedNumber => "cannot convert float NaN to integer"
  | .tooLarge => "number out of range"
  | .fieldless kind => s!"'{kind}' object has no fields"

/-- The cause as it stands inside another message: the name of a missing field is quoted. -/
def report (d : Defect) : String :=
  if d.kind = .missing then Text.quoted d.message else d.message

end Defect

/-- A value in running text, if it can be written. -/
def Json.written (value : Json) : Except Defect String :=
  if value.isWritable then .ok value.display else .error .unwritable

theorem Json.written_of_isWritable {value : Json} (h : value.isWritable) :
    value.written = .ok value.display := if_pos h

end Stageflow
