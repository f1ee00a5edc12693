import Stageflow.System.Documents

/-!
# Activations that overlap

An activation takes two turns. It reads the document of its team and resolves it; later it compiles
what it has read to the next version and publishes it, under the lock of the registry. Between the
turns of one activation others take theirs, and documents are edited.
-/

namespace Stageflow

/-- An activation between its turns: when it read, which document of its team that was, and what
the document was resolved to, from the documents of the time. Readings count from zero, and the
documents that the team has had from one. -/
structure Draft where
  reading : Nat
  edition : Nat
  source : Source
  merged : MergedDocument

/-- An activation that has published a version. -/
structure Print where
  draft : Draft
  workflow : Workflow

/-- A system with the documents that a team has had, the editions that its activations have read,
the activations between their turns, and those that have published. All but those between their
turns are in order, oldest first. -/
structure Press where
  system : System
  editions : List TeamDocument
  readings : List Nat := []
  waiting : List Draft := []
  prints : List Print := []

namespace Press

/-- A turn: a document is edited, an activation of the team reads, or one that waits publishes. -/
inductive Turn where
  | edit (raw : Json)
  | read
  | publish (draft : Nat)

/-- A system before any activation of a team. -/
def of (team : String) (s : System) : Press where
  system := s
  editions := (s.source.document? team).toList

/-- What a turn leads to. An activation that fails in one of its turns is over. -/
def turn (team : String) (p : Press) : Turn → Press
  | .edit raw =>
    match Run.putDocument raw p.system with
    | .ok document s =>
      { p with
        system := s
        editions := if document.id = team then p.editions ++ [document] else p.editions }
    | .error _ s => { p with system := s }
  | .read =>
    let readings := p.readings ++ [p.editions.length]
    match Run.draft team p.system with
    | .ok merged s =>
      let draft := ⟨p.readings.length, p.editions.length, p.system.source, merged⟩
      { p with system := s, readings, waiting := p.waiting ++ [draft] }
    | .error _ s => { p with system := s, readings }
  | .publish i =>
    match p.waiting[i]? with
    | none => p
    | some draft =>
      let waiting := p.waiting.eraseIdx i
      match Run.issue team draft.merged p.system with
      | .ok w s => { p with system := s, waiting, prints := p.prints ++ [⟨draft, w⟩] }
      | .error _ s => { p with system := s, waiting }

/-- What some turns lead to. -/
def through (team : String) (p : Press) (turns : List Turn) : Press := turns.foldl (turn team) p

end Press

end Stageflow
