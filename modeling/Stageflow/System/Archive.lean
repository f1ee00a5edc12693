import Stageflow.System.Documents

/-!
# Registries over one store

A store of documents can keep the versions that are published as well, and more than one registry
can work on it. Each registry has a memory of the versions that it published itself, and looks up
all others among the saved ones. The memory of a new registry is empty, and so is that of a closed
one.
-/

namespace Stageflow

/-- A store with its saved versions, and the registries that work on it, by number. -/
structure Archive where
  system : System := {}
  saved : Versions := []
  registries : Table Nat Registry := []

/-- What is done with the store: documents are edited, and registries activate teams or are closed.
-/
inductive Errand where
  | putDocument (raw : Json)
  | saveDocument (raw : Json) (expected : Int)
  | putFragment (name : String) (fragment : Json)
  | activate (registry : Nat) (team : String)
  | activateAll (registry : Nat)
  | close (registry : Nat)

namespace Errand

/-- The registry that an errand goes through. It makes no difference to documents. -/
def registry : Errand → Nat
  | .activate registry _ | .activateAll registry | .close registry => registry
  | _ => 0

/-- The computation of an errand. Its result is not kept. -/
def perform : Errand → Run Unit
  | .putDocument raw => do let _ ← Run.putDocument raw
  | .saveDocument raw expected => do let _ ← Run.saveDocument raw expected
  | .putFragment name fragment => Run.putFragment name fragment
  | .activate _ team => do let _ ← Run.activate team
  | .activateAll _ => do let _ ← Run.activateAll
  | .close _ => Run.closePart .registry

end Errand

namespace Archive

/-- A registry over the saved versions. -/
def registry (archive : Archive) (i : Nat) : Registry :=
  { (archive.registries.get? i).getD {} with saved := archive.saved }

/-- The store as a system with one of the registries. -/
def systemOf (archive : Archive) (i : Nat) : System :=
  { archive.system with registry := archive.registry i }

/-- The archive after an errand. -/
def run (archive : Archive) (errand : Errand) : Archive :=
  let t := errand.perform.after (archive.systemOf errand.registry)
  { system := t, saved := t.registry.saved
    registries := archive.registries.put errand.registry t.registry }

/-- The archive after some errands. -/
def through (archive : Archive) (errands : List Errand) : Archive := errands.foldl run archive

theorem through_append (archive : Archive) (before later : List Errand) :
    archive.through (before ++ later) = (archive.through before).through later :=
  List.foldl_append

end Archive

end Stageflow
