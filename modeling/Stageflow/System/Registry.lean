import Stageflow.Fault

/-!
# Versions of workflows

Every successful activation of a team adds a version of its workflow and makes it the active one.
Versions are never changed; those that were saved stay available when the registry is closed.

The saved copies here are those of a store in memory. `System.Vault` has registries over any store.
-/

namespace Stageflow

/-- The versions of workflows by team and number. -/
abbrev Versions := Table (String × Int) Workflow

/-- Versions, the active ones, and the saved copies. -/
structure Registry where
  versions : Versions := []
  active : Table String Workflow := []
  saved : Versions := []
  deriving Repr

namespace Registry

/-- A version of a team's workflow. -/
def version? (registry : Registry) (team : String) (version : Int) : Option Workflow :=
  (registry.versions.get? (team, version)).orElse fun _ => registry.saved.get? (team, version)

/-- A version of a team's workflow, or what is missing. -/
def version (registry : Registry) (team : String) (version : Int) : Except Fault Workflow :=
  match registry.version? team version with
  | some w => .ok w
  | none => .error (.noVersion team version)

/-- The active workflow of a team, or what is missing. -/
def activeFor (registry : Registry) (team : String) : Except Fault Workflow :=
  match registry.active.get? team with
  | some w => .ok w
  | none => .error (.notActive team)

/-- The number of a team's next version. -/
def nextVersion (registry : Registry) (team : String) : Int :=
  (registry.versions.foldl (fun n p => if p.1.1 = team then max n p.1.2 else n) 0) + 1

/-- Takes a version into memory and makes it active. -/
def enter (registry : Registry) (w : Workflow) : Registry :=
  { registry with
    versions := registry.versions.put (w.team, w.version) w
    active := registry.active.put w.team w }

/-- Publishes a version: it is taken into memory, made active, and saved in a store in memory, which
takes every version. -/
def publish (registry : Registry) (w : Workflow) : Registry where
  versions := registry.versions.put (w.team, w.version) w
  active := registry.active.put w.team w
  saved := registry.saved.put (w.team, w.version) w

/-- The teams with an active workflow, by code point. -/
def teams (registry : Registry) : List String :=
  Text.sorted registry.active.keys

/-- The registry without its versions; the saved copies stay. -/
def close (registry : Registry) : Registry := { saved := registry.saved }

end Registry

end Stageflow
