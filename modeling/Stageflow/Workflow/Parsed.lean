import Stageflow.Document.Resolution
import Stageflow.Element.Level
import Stageflow.Element.Rule
import Stageflow.Element.Stage
import Stageflow.Element.Threshold

/-!
# Parsed documents

The elements of a merged document, read section by section. An element that cannot be read is left
out and noted; a defect that goes beyond the element ends the reading.
-/

namespace Stageflow

/-- The kinds of elements, one for each section. -/
inductive ElementKind where
  | stage
  | status
  | transition
  | level
  | rule
  | threshold
  deriving DecidableEq, Repr

/-- The name of a kind in messages. -/
def ElementKind.name : ElementKind → String
  | .stage => "stage"
  | .status => "status"
  | .transition => "transition"
  | .level => "complexity"
  | .rule => "automation rule"
  | .threshold => "metric threshold"

/-- An element that could not be read: its kind, what it calls itself, and why. -/
structure Malformed where
  kind : ElementKind
  ident : Json
  defect : Defect
  deriving Repr

/-- The elements of a document. -/
structure ParsedDocument where
  stages : List Stage
  statuses : List Status
  transitions : List Transition
  levels : List Level
  rules : List Rule
  thresholds : List Threshold
  initialStatus : Json
  deriving Repr

namespace ParsedDocument

/-- What a raw element calls itself: its id, else its source, else a question mark. It has to be a
value that can be written. -/
def ident (raw : Json) : Except Defect Json :=
  match raw with
  | .obj fields =>
    let ident := Fields.getOr "id" (Fields.getOr "from" (.str "?") fields) fields
    if ident.isWritable then .ok ident else .error .unwritable
  | _ => .error (.fieldless raw.kindName)

/-- Whether a defect is noted of the element and does not end the reading. -/
def isNoted (d : Defect) : Bool :=
  match d.kind with
  | .invalid | .missing | .mistyped => true
  | .overflow | .fieldless => false

/-- Reads the elements of a section. -/
def readSection {α : Type} (kind : ElementKind) (parse : Json → Except Defect α) :
    List Json → Except Defect (List α × List Malformed)
  | [] => .ok ([], [])
  | raw :: rest =>
    match parse raw with
    | .ok element => do
      let (elements, malformed) ← readSection kind parse rest
      return (element :: elements, malformed)
    | .error d =>
      if isNoted d then do
        let ident ← ident raw
        let (elements, malformed) ← readSection kind parse rest
        return (elements, ⟨kind, ident, d⟩ :: malformed)
      else .error d

/-- The ids that stand behind another one of the same text, in order. -/
def repeated : List String → List String → List String
  | _, [] => []
  | seen, id :: rest =>
    if id ∈ seen then id :: repeated seen rest else repeated (id :: seen) rest

/-- What was noted while a document was read: elements left out, and repeated ids of stages and
statuses. -/
structure Notes where
  states : List Malformed
  repeatedStages : List String
  repeatedStatuses : List String
  others : List Malformed
  deriving Repr

/-- Reads the elements of a merged document. -/
def ofMerged (document : MergedDocument) : Except Defect (ParsedDocument × Notes) := do
  let sections := document.sections
  let (stages, badStages) ← readSection .stage Stage.parse sections.stages
  let (statuses, badStatuses) ← readSection .status Status.parse sections.statuses
  let (transitions, badTransitions) ←
    readSection .transition Transition.parse sections.transitions
  let (levels, badLevels) ← readSection .level Level.parse sections.complexity
  let (rules, badRules) ← readSection .rule Rule.parse sections.automation
  let (thresholds, badThresholds) ← readSection .threshold Threshold.parse sections.metrics
  let parsed : ParsedDocument := {
    stages, statuses, transitions, levels, rules, thresholds
    initialStatus := document.initialStatus }
  return (parsed, {
    states := badStages ++ badStatuses
    repeatedStages := repeated [] (stages.map (·.id))
    repeatedStatuses := repeated [] (statuses.map (·.id))
    others := badTransitions ++ badLevels ++ badRules ++ badThresholds })

end ParsedDocument

end Stageflow
