import Stageflow.Element.Reading

/-!
# Team documents

What a team writes: its id, name and version, perhaps another document it extends, and six sections
of raw elements. The elements are read only after the document is resolved.
-/

namespace Stageflow

/-- The sections of a document. -/
inductive Section where
  | stages
  | statuses
  | transitions
  | complexity
  | automation
  | metrics
  deriving DecidableEq, Repr

/-- The name of a section. -/
def Section.name : Section → String
  | .stages => "stages"
  | .statuses => "statuses"
  | .transitions => "transitions"
  | .complexity => "complexity"
  | .automation => "automation"
  | .metrics => "metrics"

/-- All sections, in order. -/
def Section.all : List Section :=
  [.stages, .statuses, .transitions, .complexity, .automation, .metrics]

/-- A value for each section. -/
structure PerSection (α : Type) where
  stages : α
  statuses : α
  transitions : α
  complexity : α
  automation : α
  metrics : α
  deriving Repr

/-- Raw elements by section. -/
abbrev Sections := PerSection (List Json)

namespace PerSection

variable {α : Type}

/-- The value for a section. -/
def of (sections : PerSection α) : Section → α
  | .stages => sections.stages
  | .statuses => sections.statuses
  | .transitions => sections.transitions
  | .complexity => sections.complexity
  | .automation => sections.automation
  | .metrics => sections.metrics

/-- The values that a function gives. -/
def ofFunction (value : Section → α) : PerSection α :=
  ⟨value .stages, value .statuses, value .transitions, value .complexity, value .automation,
    value .metrics⟩

/-- The values of a reading of each section, in order; the first failure counts. -/
def build (read : Section → Except Defect α) : Except Defect (PerSection α) := do
  return ⟨← read .stages, ← read .statuses, ← read .transitions, ← read .complexity,
    ← read .automation, ← read .metrics⟩

@[simp] theorem of_ofFunction (value : Section → α) (s : Section) :
    (ofFunction value).of s = value s := by cases s <;> rfl

end PerSection

/-- The document of a team. -/
structure TeamDocument where
  id : String
  name : Json
  description : Json
  version : String
  base : Option String
  initialStatus : Json
  sections : Sections
  deriving Repr

namespace TeamDocument

/-- Reads the elements of a section: a list, or nothing. -/
def readSection (team : String) (fields : Fields) (s : Section) : Except Defect (List Json) :=
  match fields.get? s.name with
  | none | some .null => .ok []
  | some (.arr elements) => .ok elements
  | some value => .error (.sectionShape team s.name value.kindName)

/-- The fields under `team`; what does not count as true stands for none. -/
def readTeam (fields : Fields) : Except Defect Fields :=
  match (fields.getOrNull "team").orElse (.obj []) with
  | .obj team => .ok team
  | _ => .error .teamShape

/-- The document that a document extends: null or a text. -/
def readBase (team : String) : Json → Except Defect (Option String)
  | .null => .ok none
  | .str base => .ok (some base)
  | _ => .error (.extendsShape team)

/-- Reads a document from its fields; the id is that of the team, or else the document's own. -/
def ofFields (fields : Fields) : Except Defect TeamDocument := do
  let team ← readTeam fields
  let id ← identifier "team" (team.getOr "id" (fields.getOrNull "id"))
  let sections ← PerSection.build (readSection id fields)
  let base ← readBase id (fields.getOrNull "extends")
  let version ← (fields.getOr "version" (.str "1.0")).written
  return {
    id, base, sections, version
    name := team.getOr "name" (.str id)
    description := (team.getOrNull "description").orElse (.str "")
    initialStatus := fields.getOrNull "initial_status" }

/-- Reads a document. -/
def parse : Json → Except Defect TeamDocument
  | .obj fields => ofFields fields
  | raw => .error (.fieldless raw.kindName)

end TeamDocument

end Stageflow
