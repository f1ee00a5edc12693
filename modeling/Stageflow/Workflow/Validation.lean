import Stageflow.Workflow.Edges
import Stageflow.Workflow.Parsed

/-!
# Validation

What is wrong with a document as a state machine. Every problem is an issue with its cause; errors
stop a document from being compiled, warnings do not.
-/

namespace Stageflow

/-- A problem of a document. -/
inductive ValidationIssue where
  | malformed (element : Malformed)
  | repeatedStage (id : String)
  | repeatedStatus (id : String)
  | nothingDeclared
  | stageOfStatus (status stage : String)
  | unknownSource (source : String)
  | unknownTarget (source target : String)
  | unknownException (status : String)
  | terminalEdge (source target : String)
  | unknownInitial (status : Json)
  | initialHasEntry (status : String)
  | unreachable (status initial : String)
  | entryStatus (stage : String) (status : Json)
  | stageOfLevel (level : String) (stage : Json)
  | statusOfRule (rule : String) (status : Json)
  | stageOfThreshold (threshold : String) (stage : Json)
  | thresholdWithoutStage (threshold : String)
  deriving Repr

namespace ValidationIssue

/-- The class of an issue. -/
def kind : ValidationIssue → String
  | .malformed _ | .thresholdWithoutStage _ => "malformed_element"
  | .repeatedStage _ | .repeatedStatus _ => "duplicate_id"
  | .nothingDeclared => "no_statuses"
  | .stageOfStatus .. => "unknown_stage"
  | .unknownSource _ | .unknownTarget .. | .unknownInitial _ => "unknown_status"
  | .unknownException _ => "unknown_except"
  | .terminalEdge .. => "invalid_terminal_edge"
  | .initialHasEntry _ | .unreachable .. => "unreachable_start"
  | .entryStatus .. | .statusOfRule .. => "unknown_status_ref"
  | .stageOfLevel .. | .stageOfThreshold .. => "unknown_stage_ref"

/-- The wording of an issue. -/
def message : ValidationIssue → String
  | .malformed m => s!"{m.kind.name} '{m.ident.display}': {m.defect.report}"
  | .repeatedStage id => s!"stages: duplicate id '{id}'"
  | .repeatedStatus id => s!"statuses: duplicate id '{id}'"
  | .nothingDeclared => "config must declare at least one stage and one status"
  | .stageOfStatus status stage => s!"status '{status}' references unknown stage '{stage}'"
  | .unknownSource source => s!"transition from unknown status '{source}'"
  | .unknownTarget source target =>
    s!"transition {source}->{target} targets unknown status '{target}'"
  | .unknownException status =>
    s!"wildcard except clause references unknown status '{status}'"
  | .terminalEdge source target =>
    s!"terminal status '{source}' has outgoing transition to non-terminal status '{target}'"
  | .unknownInitial status => s!"initial_status '{status.display}' is not a declared status"
  | .initialHasEntry status => s!"initial status '{status}' is also the target of a transition"
  | .unreachable status initial =>
    s!"status '{status}' is unreachable from initial status '{initial}'"
  | .entryStatus stage status =>
    s!"stage '{stage}' entry_status '{status.display}' is not a status of that stage"
  | .stageOfLevel level stage =>
    s!"complexity '{level}' references unknown stage '{stage.display}'"
  | .statusOfRule rule status =>
    s!"automation rule '{rule}' references unknown status '{status.display}'"
  | .stageOfThreshold threshold stage =>
    s!"metric threshold '{threshold}' references unknown stage '{stage.display}'"
  | .thresholdWithoutStage threshold =>
    s!"metric threshold '{threshold}': stage_duration needs a stage"

/-- Whether an issue only advises. -/
def isWarning : ValidationIssue → Bool
  | .initialHasEntry _ | .unreachable .. => true
  | _ => false

/-- The severity of an issue. -/
def severity (issue : ValidationIssue) : String := if issue.isWarning then "warning" else "error"

/-- An issue with its class in front. -/
def line (issue : ValidationIssue) : String := s!"[{issue.kind}] {issue.message}"

/-- The failure to compile a team's document; it names the errors. -/
def summary (team : String) (issues : List ValidationIssue) : String :=
  s!"Invalid config for team '{team}': " ++
    "; ".intercalate ((issues.filter fun i => !i.isWarning).map line)

end ValidationIssue

/-- Whether a reference can be checked: it can be looked up, and written where it is not found. -/
def Json.isReference (value : Json) : Bool := value.isKey && value.isWritable

@[simp] theorem Json.isReference_str {s : String} : (Json.str s).isReference := by
  simp [isReference, isKey]

@[simp] theorem Json.isReference_null : Json.null.isReference := by
  simp [isReference, isKey]

/-- Why a reference cannot be checked: arrays and objects cannot be looked up, and what else is no
text, and so is never found, cannot be written. -/
def Json.checkDefect (value : Json) : Defect :=
  if value.isKey then .unwritable else .unhashable value.kindName

/-- Whether a reference is one of some texts. -/
def Json.oneOf (texts : List String) (value : Json) : Except Defect Bool :=
  if value.isReference then
    .ok (match value with
      | .str s => texts.contains s
      | _ => false)
  else .error value.checkDefect

namespace ParsedDocument

/-- The ids of the stages. -/
def stageIds (d : ParsedDocument) : List String := d.stages.map (·.id)

/-- The ids of the statuses. -/
def statusIds (d : ParsedDocument) : List String := d.statuses.map (·.id)

/-- The table of moves. -/
def edges (d : ParsedDocument) : Edges := .ofTransitions d.transitions d.statusIds

/-- The stage of a status; of a repeated id the last one counts. -/
def stageOf? (d : ParsedDocument) (status : String) : Option String :=
  (d.statuses.reverse.find? (·.id = status)).map (·.stage)

/-- Whether a stage is declared terminal. -/
def isTerminalStage (d : ParsedDocument) (stage : String) : Bool :=
  d.stages.any fun s => s.terminal && s.id = stage

/-- Whether a status lies in a terminal stage. -/
def isTerminal (d : ParsedDocument) (status : String) : Bool :=
  (d.stageOf? status).any d.isTerminalStage

/-! ## The checks -/

/-- The names of a list that none of some values answers to, as issues. -/
def missing (references : List Json) (known : List String) (issue : Json → ValidationIssue) :
    Except Defect (List ValidationIssue) := do
  let unknown ← references.filterM fun r => do return !(← r.oneOf known)
  return unknown.map issue

/-- Statuses of unknown stages. -/
def checkStatuses (d : ParsedDocument) : List ValidationIssue :=
  (d.statuses.filter fun s => !d.stageIds.contains s.stage).map fun s => .stageOfStatus s.id s.stage

/-- Unknown endpoints and exceptions of a transition. -/
def checkTransition (d : ParsedDocument) (t : Transition) : List ValidationIssue :=
  let unknown (s : String) : Bool := !d.statusIds.contains s
  (if !t.isWildcard && unknown t.source then [.unknownSource t.source] else []) ++
    (t.targets.filter unknown).map (.unknownTarget t.source) ++
    (t.exceptions.filter unknown).map .unknownException

/-- Moves that leave the terminal stages. -/
def checkTerminal (d : ParsedDocument) : List ValidationIssue :=
  let edges := d.edges
  (d.statusIds.filter d.isTerminal).flatMap fun s =>
    ((edges.destinations s).filter fun t => !d.isTerminal t).map (.terminalEdge s)

/-- The initial status: the declared one if it is a status, else the first status. -/
def checkInitial (d : ParsedDocument) : Except Defect (Option String × List ValidationIssue) :=
  match d.initialStatus with
  | .null => .ok (d.statusIds.head?, [])
  | .str s =>
    .ok (if d.statusIds.contains s then (some s, [])
      else (d.statusIds.head?, [.unknownInitial (.str s)]))
  | value =>
    if value.isReference then .ok (d.statusIds.head?, [.unknownInitial value])
    else .error value.checkDefect

/-- Advice on the initial status. -/
def checkReach (d : ParsedDocument) (initial : String) : List ValidationIssue :=
  let edges := d.edges
  let reachable := edges.reachable initial
  (if edges.hasEntry initial then [.initialHasEntry initial] else []) ++
    (d.statusIds.filter fun s => !reachable.contains s).map (.unreachable · initial)

/-- Entry statuses that are no status of their stage. -/
def checkEntry (d : ParsedDocument) (s : Stage) : Except Defect (List ValidationIssue) :=
  match s.entryStatus with
  | .null => .ok []
  | value => do
    let own := d.statusIds.filter fun status => d.stageOf? status = some s.id
    return if ← value.oneOf own then [] else [.entryStatus s.id value]

/-- Unknown stages of a level. -/
def checkLevel (d : ParsedDocument) (level : Level) : Except Defect (List ValidationIssue) :=
  missing ((level.skipStages ++ level.requiredStages).map .str ++ level.approvals.map (·.stage))
    d.stageIds (.stageOfLevel level.id)

/-- The status that an action names as its target, unless it asks for the next stage. -/
def actionTarget? (a : Action) : Option Json :=
  match a.type with
  | .autoTransition | .rollback =>
    match a.params.get? "to" with
    | none | some .null => none
    | some value => if value.alike (.str nextStage) then none else some value
  | _ => none

/-- Unknown statuses of a rule. -/
def checkRule (d : ParsedDocument) (rule : Rule) : Except Defect (List ValidationIssue) :=
  missing ((rule.sources ++ rule.target.toList).map .str ++
      (rule.actions ++ rule.onBreak).filterMap actionTarget?)
    d.statusIds (.statusOfRule rule.id)

/-- Unknown and missing stages of a threshold. -/
def checkThreshold (d : ParsedDocument) (t : Threshold) : Except Defect (List ValidationIssue) :=
  match t.stage with
  | .null =>
    .ok (if t.metric = .stageDuration then [.thresholdWithoutStage t.id] else [])
  | value => do
    return if ← value.oneOf d.stageIds then [] else [.stageOfThreshold t.id value]

/-- The outcome of the checks: the issues and the initial status. -/
structure Verdict where
  issues : List ValidationIssue
  initial : Option String

/-- Runs every check. -/
def validate (d : ParsedDocument) : Except Defect Verdict := do
  let (initial, initialIssues) ← d.checkInitial
  let entry ← d.stages.mapM d.checkEntry
  let levels ← d.levels.mapM d.checkLevel
  let rules ← d.rules.mapM d.checkRule
  let thresholds ← d.thresholds.mapM d.checkThreshold
  return {
    initial
    issues :=
      (if d.stages.isEmpty || d.statuses.isEmpty then [.nothingDeclared] else []) ++
        d.checkStatuses ++ d.transitions.flatMap d.checkTransition ++ d.checkTerminal ++
        initialIssues ++ (initial.map d.checkReach).getD [] ++
        entry.flatten ++ levels.flatten ++ rules.flatten ++ thresholds.flatten }

end ParsedDocument

/-- The issues noted while a document was read. -/
def ParsedDocument.Notes.issues (notes : ParsedDocument.Notes) : List ValidationIssue :=
  notes.states.map .malformed ++ notes.repeatedStages.map .repeatedStage ++
    notes.repeatedStatuses.map .repeatedStatus ++ notes.others.map .malformed

/-- All issues of a merged document, errors and warnings. -/
def MergedDocument.issues (document : MergedDocument) : Except Defect (List ValidationIssue) := do
  let (parsed, notes) ← ParsedDocument.ofMerged document
  return notes.issues ++ (← parsed.validate).issues

end Stageflow
