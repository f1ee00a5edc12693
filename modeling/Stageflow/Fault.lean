import Stageflow.Json.Parser
import Stageflow.Text.Template
import Stageflow.Workflow.Basic

/-!
# Faults

Why an operation fails. A `Fault` is a cause; `Fault.message` words it, and `Fault.report` words it
for the record of a failed action.
-/

namespace Stageflow

/-- A cause of failure. -/
inductive Fault where
  | defect (d : Defect)
  | unresolved (team : String) (issues : List ResolutionIssue)
  | invalid (team : String) (issues : List ValidationIssue)
  | noDocument (team : String)
  | notActive (team : String)
  | noVersion (team : String) (version : Int)
  | statusPlace (f : StageFault)
  | unknownStage (stage team : String)
  | unknownLevel (level team : String)
  | itemMissing (item : String)
  | itemExists (item : String)
  | stale (record : String) (expected actual : Int)
  | illegal (item source target : String) (reason : Option String)
  | approvalPending (item stage : String) (missing : List String)
  | criteriaUnmet (item stage : String) (unmet : List String)
  | busy (item : String)
  | overtaken (item : String) (expected actual : Int)
  | waitTooLong
  | budgetTooLong
  | mixedTimes (doing : String)
  | noMetrics (item : String)
  | unconfigured (what : String)
  | down (name : String)
  | parameterMissing (action : ActionType) (name : String)
  | nothingToRollBack (item : String)
  | noVariables (kind : String)
  | template (f : Template.Fault)
  | noProject (start : String)
  | isFolder (path : String)
  | notFolder (path : String)
  | fileExists (path : String)
  | notJson
  | tooManyDigits (digits : Nat)
  | notYaml
  | notMapping
  deriving Repr

namespace Fault

/-- The fault of a text that is not read. -/
def ofUnread : Json.Unread → Fault
  | .malformed => .notJson
  | .tooLong digits => .tooManyDigits digits

/-- The words for a write that comes too late. -/
def staleText (record : String) (expected actual : Int) : String :=
  s!"Stale write for '{record}': expected version {expected}, stored version is {actual}"

/-- The words for a request that another one is in the way of. -/
def conflictText (item reason : String) : String := s!"Conflict on item '{item}': {reason}"

/-- The wording of a fault. -/
def message : Fault → String
  | .defect d => d.message
  | .unresolved team issues => ResolutionIssue.summary team issues
  | .invalid team issues => ValidationIssue.summary team issues
  | .noDocument team => s!"No team config found for '{team}'"
  | .notActive team => s!"No active config for team '{team}'"
  | .noVersion team version => s!"No config version {version} for team '{team}'"
  | .statusPlace f => f.message
  | .unknownStage stage team => s!"Unknown stage '{stage}' for team '{team}'"
  | .unknownLevel level team => s!"Unknown complexity level '{level}' for team '{team}'"
  | .itemMissing item => s!"Item not found: {item}"
  | .itemExists item => s!"Item '{item}' already exists"
  | .stale record expected actual => staleText record expected actual
  | .illegal item source target reason =>
    s!"Transition '{source}' -> '{target}' is not allowed for item '{item}'" ++
      (match reason with
        | some text => s!" ({text})"
        | none => "") ++
      ". Use available_transitions() to see legal targets."
  | .approvalPending item stage missing =>
    s!"Item '{item}' cannot leave stage '{stage}': awaiting sign-off from " ++ Text.commas missing
  | .criteriaUnmet item stage unmet =>
    s!"Item '{item}' cannot leave stage '{stage}': unmet exit criteria: " ++ Text.commas unmet
  | .busy item => conflictText item "another transition is in progress"
  | .overtaken item expected actual => conflictText item (staleText item expected actual)
  | .waitTooLong | .budgetTooLong => "timestamp out of range for platform time_t"
  | .mixedTimes doing => s!"can't {doing} offset-naive and offset-aware datetimes"
  | .noMetrics item => s!"No metrics recorded for item: {item}"
  | .unconfigured what => s!"no {what} configured"
  | .down name => s!"{name} down"
  | .parameterMissing action name => s!"{action.name} action requires '{name}'"
  | .nothingToRollBack item => s!"item '{item}' has no previous status to roll back to"
  | .noVariables kind => s!"'{kind}' object has no attribute 'items'"
  | .template f => f.message
  | .noProject start => s!"No .idlc/ directory found in {start} or any parent"
  | .isFolder path => s!"[Errno 21] Is a directory: {Text.quoted path}"
  | .notFolder path => s!"[Errno 20] Not a directory: {Text.quoted path}"
  | .fileExists path => s!"[Errno 17] File exists: {Text.quoted path}"
  | .notJson => "not a JSON value"
  | .tooManyDigits digits =>
    s!"Exceeds the limit ({Json.mostDigits} digits) for integer string conversion: " ++
      s!"value has {digits} digits; use sys.set_int_max_str_digits() to increase the limit"
  | .notYaml => "not a YAML document"
  | .notMapping => "team file must contain a mapping"

/-- Whether a fault says that something looked up is not there. -/
def isMissing : Fault → Bool
  | .noDocument _ | .notActive _ | .noVersion .. | .statusPlace (.unknownStatus ..)
  | .unknownStage .. | .itemMissing _ | .noMetrics _ => true
  | .defect d => d.kind = .missing
  | .template f => f.kind = .field
  | _ => false

/-- Whether a fault is a refusal to move an item. -/
def isRefusal : Fault → Bool
  | .illegal .. | .approvalPending .. | .criteriaUnmet .. | .busy _ | .overtaken .. => true
  | _ => false

/-- The wording in the record of a failed action: a name that is not there is put in quotes. -/
def report : Fault → String
  | .template (.noPosition index) => toString index
  | f => if f.isMissing then Text.quoted f.message else f.message

end Fault

end Stageflow
