import Stageflow.Element.Reading

/-!
# Transitions

A transition allows the moves from one status to some targets. The wildcard source stands for every
status but the excepted ones. `elementKey` is what elements of a section are told apart by.
-/

namespace Stageflow

/-- The source that stands for every status. -/
def wildcard : String := "*"

/-- The target that asks for the next stage. -/
def nextStage : String := "@next"

/-- A declaration of moves. -/
structure Transition where
  key : String
  source : String
  targets : List String
  exceptions : List String
  deriving DecidableEq, Repr

/-- Whether the source is the wildcard. -/
def Transition.isWildcard (t : Transition) : Bool := t.source = wildcard

/-- The key of the fields of an element: its id, or for a transition without one its source. -/
def Fields.key (sect : String) (fields : Fields) : Except Defect String :=
  match fields.get? "id" with
  | some id => id.written
  | none =>
    match if sect = "transitions" then fields.get? "from" else none with
    | some source => source.written
    | none => .error (.noKey sect)

/-- Whether a value other than an object contains a text, in the way a field is looked for. -/
def Json.mentions? (field : String) : Json → Option Bool
  | .arr xs => some (xs.any (·.alike (.str field)))
  | .str s => some ((s.splitOn field).length ≠ 1)
  | _ => none

/-- The key of a raw element. A value without fields that seems to have the field cannot be read. -/
def elementKey (sect : String) (raw : Json) : Except Defect String :=
  match raw with
  | .obj fields => Fields.key sect fields
  | _ =>
    match raw.mentions? "id", raw.mentions? "from" with
    | some hasId, some hasSource =>
      if hasId || (sect = "transitions" && hasSource) then .error .subscript
      else .error (.noKey sect)
    | _, _ => .error (.notIterable raw.kindName)

/-- Reads a transition. -/
def Transition.parse (raw : Json) : Except Defect Transition := do
  let fields ← raw.elementFields
  match ← fields.require "from" with
  | .str source =>
    let what := s!"Transition from '{source}'"
    let targets ← fields.texts "to" what
    if targets.isEmpty then throw (.noTargets what)
    let exceptions ← fields.texts "except" what
    if !exceptions.isEmpty && source ≠ wildcard then throw (.exceptWithoutWildcard what)
    return { key := ← fields.key "transitions", source, targets, exceptions }
  | value => throw (.sourceKind value.kindName)

end Stageflow
