import Stageflow.Element.Reading
import Stageflow.Text.Order

/-!
# Complexity levels

A level sizes an item. It names the stages that such an item may skip or must visit, and the roles
that have to sign off before the item leaves a stage.
-/

namespace Stageflow

/-- The roles that sign off before a stage is left. -/
structure Approval where
  stage : Json
  roles : List String
  deriving Repr

/-- A sizing level. -/
structure Level where
  id : String
  name : Json
  points : Option (Binary64 × Binary64)
  skipStages : List String
  requiredStages : List String
  approvals : List Approval
  deriving Repr

namespace Approval

/-- Reads an approval. -/
def parse (what : String) (raw : Json) : Except Defect Approval := do
  match raw.fields? with
  | none => throw (.approvalShape what)
  | some fields =>
    match fields.get? "stage" with
    | none => throw (.approvalShape what)
    | some stage => return ⟨stage, Text.sortedSet (← fields.texts "roles" what)⟩

end Approval

namespace Level

/-- Reads a range of points: null, or a pair of numbers. -/
def parsePoints (what : String) : Json → Except Defect (Option (Binary64 × Binary64))
  | .null => .ok none
  | .arr [low, high] => do return some (← low.number, ← high.number)
  | _ => .error (.pointsShape what)

/-- Reads a level. -/
def parse (raw : Json) : Except Defect Level := do
  let fields ← raw.elementFields
  let id ← identifier "complexity level" (← fields.require "id")
  let what := s!"Complexity '{id}'"
  let points ← parsePoints what (fields.getOrNull "points")
  let approvals ← (← fields.membersOf "require_approval").mapM (Approval.parse what)
  let skipStages ← fields.texts "skip_stages" what
  let requiredStages ← fields.texts "required_stages" what
  let name := fields.getOr "name" (.str id)
  return { id, name, points, skipStages, requiredStages, approvals }

/-- The roles that have to sign off before a stage is left, by code point. -/
def rolesFor (level : Level) (stage : String) : List String :=
  Text.sortedSet ((level.approvals.filter fun a => a.stage.alike (.str stage)).flatMap (·.roles))

/-- Whether a weight lies in the range of the level, both ends included. -/
def covers (level : Level) (weight : Json) : Except Defect Bool :=
  match level.points, weight.place? with
  | none, _ => .ok false
  | some _, none => .error .comparison
  | some (low, high), some place =>
    .ok (Binary64.compared Extended.le low.place? place &&
      Binary64.compared Extended.le place high.place?)

end Level

end Stageflow
