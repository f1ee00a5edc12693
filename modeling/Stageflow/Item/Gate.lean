import Stageflow.Element.Level
import Stageflow.Item.Basic

/-!
# Approval gates

The gate of a stage is open when every role that the item's level requires has signed off. Sign-offs
are only added: the approver recorded first for a role stays.
-/

namespace Stageflow

/-- The state of a gate: the roles it requires and those that are missing, by code point. -/
structure Gate where
  stage : String
  required : List String
  missing : List String
  deriving DecidableEq, Repr

/-- Whether nothing is missing. -/
def Gate.isOpen (gate : Gate) : Bool := gate.missing.isEmpty

/-- The sign-offs of a stage. -/
def SignOffs.of (signOffs : SignOffs) (stage : String) : Fields := (signOffs.get? stage).getD []

/-- The gate of a stage for a level. -/
def Gate.check (level : Option Level) (stage : String) (signOffs : SignOffs) : Gate :=
  let required := (level.map fun l => l.rolesFor stage).getD []
  ⟨stage, required, required.filter fun role => !(signOffs.of stage).has role⟩

/-- Records a sign-off; the answer says whether the role had none. -/
def SignOffs.record (signOffs : SignOffs) (stage role : String) (approver : Json) :
    Bool × SignOffs :=
  let roles := signOffs.of stage
  if roles.has role then (false, signOffs) else (true, signOffs.put stage (roles.put role approver))

end Stageflow
