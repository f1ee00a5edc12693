import Stageflow.Element.Predicate

/-!
# Stages and statuses

A stage is a phase of the lifecycle; a status is a state that an item is in, and belongs to one
stage. Names, descriptions and colours are kept as written.
-/

namespace Stageflow

/-- How the exit criteria of a stage are enforced. -/
inductive Enforcement where
  | soft
  | hard
  deriving DecidableEq, Repr

/-- The name of an enforcement. -/
def Enforcement.name : Enforcement → String
  | .soft => "soft"
  | .hard => "hard"

/-- The enforcement of a name. -/
def Enforcement.ofName? : String → Option Enforcement
  | "soft" => some .soft
  | "hard" => some .hard
  | _ => none

/-- A phase of the lifecycle. -/
structure Stage where
  id : String
  name : Json
  description : Json
  required : Bool
  terminal : Bool
  skipIf : Option Predicate
  entryCriteria : List String
  exitCriteria : List String
  enforcement : Enforcement
  entryStatus : Json
  deriving Repr

/-- A state of an item, under one stage. -/
structure Status where
  id : String
  stage : String
  name : Json
  description : Json
  color : Json
  deriving Repr

/-- Reads a stage. -/
def Stage.parse (raw : Json) : Except Defect Stage := do
  let fields ← raw.elementFields
  let id ← identifier "stage" (← fields.require "id")
  let value := fields.getOr "enforcement" (.str "soft")
  match (← value.wordAmong ["soft", "hard"]).bind Enforcement.ofName? with
  | none => throw (.enforcement id (← value.written))
  | some enforcement =>
    let skipIf ← Predicate.parse? (fields.getOrNull "skip_if")
    let entryCriteria ← fields.texts "entry_criteria" s!"Stage '{id}'"
    let exitCriteria ← fields.texts "exit_criteria" s!"Stage '{id}'"
    return {
      id
      name := fields.getOr "name" (.str id)
      description := (fields.getOrNull "description").orElse (.str "")
      required := (fields.getOr "required" (.bool true)).truthy
      terminal := (fields.getOr "terminal" (.bool false)).truthy
      skipIf, entryCriteria, exitCriteria, enforcement
      entryStatus := fields.getOrNull "entry_status" }

/-- Reads a status; its stage is under `stage_id`, or else under `stage`. -/
def Status.parse (raw : Json) : Except Defect Status := do
  let fields ← raw.elementFields
  let id ← identifier "status" (← fields.require "id")
  match fields.getOr "stage_id" (fields.getOrNull "stage") with
  | .str stage =>
    return {
      id, stage
      name := fields.getOr "name" (.str id)
      description := (fields.getOrNull "description").orElse (.str "")
      color := fields.getOrNull "color" }
  | _ => throw (.stageOfStatus id)

end Stageflow
