import Stageflow.Time.Instant

/-!
# Items

A unit of work: the status it is in, the version of the workflow it is bound to, the sign-offs and
criteria recorded for it, and its history. `version` counts the writes of its record.
-/

namespace Stageflow

/-- A stay in a status; without an end it is still open. -/
structure Stay where
  status : String
  stage : String
  enteredAt : Instant
  exitedAt : Option Instant := none
  deriving DecidableEq, Repr

/-- The approvers by role, by stage. -/
abbrev SignOffs := Table String Fields

/-- A unit of work. -/
structure Item where
  id : String
  team : String
  workflowVersion : Int
  status : String
  complexity : Option String := none
  attributes : Fields := []
  criteria : Fields := []
  signOffs : SignOffs := []
  history : List Stay := []
  version : Int := 0
  createdAt : Option Instant := none
  updatedAt : Option Instant := none
  deriving Repr

/-- Whether a stay is still open. -/
def Stay.isOpen (s : Stay) : Bool := s.exitedAt.isNone

/-- Ends a stay. -/
def Stay.close (time : Instant) (s : Stay) : Stay := { s with exitedAt := some time }

namespace Item

/-- The open stay at the end of the history. -/
def currentStay? (item : Item) : Option Stay := item.history.getLast?.filter (·.isOpen)

/-- The status held before the current one. -/
def previousStatus? (item : Item) : Option String :=
  match item.history.reverse with
  | _ :: stay :: _ => some stay.status
  | _ => none

/-- The stays that have ended. -/
def closedStays (item : Item) : List Stay := item.history.filter fun s => !s.isOpen

/-- Whether a criterion is recorded as met. -/
def meets (item : Item) (criterion : String) : Bool := (item.criteria.getOrNull criterion).truthy

/-- The criteria of a list that are not met. -/
def unmet (item : Item) (criteria : List String) : List String :=
  criteria.filter fun c => !item.meets c

end Item

/-- A history with its last stay ended, if that one is open. -/
def closeLast (time : Instant) : List Stay → List Stay
  | [] => []
  | [stay] => [if stay.isOpen then stay.close time else stay]
  | stay :: next :: rest => stay :: closeLast time (next :: rest)

theorem closeLast_append (now : Instant) (earlier : List Stay) (last : Stay) :
    closeLast now (earlier ++ [last]) =
      earlier ++ [if last.isOpen then last.close now else last] := by
  induction earlier with
  | nil => rfl
  | cons stay rest ih =>
    cases rest with
    | nil => rfl
    | cons next rest => exact congrArg (stay :: ·) ih

/-- The end of a stay leaves it in its status and stage, from its time on. -/
theorem ended_stay (last : Stay) (now : Instant) :
    ∃ exitedAt, (if last.isOpen then last.close now else last) = { last with exitedAt } := by
  split
  · exact ⟨some now, rfl⟩
  · exact ⟨last.exitedAt, rfl⟩

theorem map_stage_closeLast (now : Instant) (history : List Stay) :
    (closeLast now history).map (·.stage) = history.map (·.stage) := by
  induction history with
  | nil => rfl
  | cons stay rest ih =>
    cases rest with
    | nil =>
      unfold closeLast
      split <;> rfl
    | cons next rest => exact congrArg (stay.stage :: ·) ih

/-- Moves an item to a status: its open stay ends and a new one begins. -/
def Item.moveTo (item : Item) (status stage : String) (time : Instant) : Item :=
  { item with
    history := closeLast time item.history ++ [⟨status, stage, time, none⟩]
    status
    updatedAt := some time }

theorem Item.history_moveTo {item : Item} {earlier : List Stay} {last : Stay}
    (hhistory : item.history = earlier ++ [last]) (hopen : last.exitedAt = none)
    (status stage : String) (time : Instant) :
    (item.moveTo status stage time).history =
      earlier ++ [last.close time, ⟨status, stage, time, none⟩] := by
  rw [Item.moveTo, hhistory, closeLast_append, if_pos (by simp [Stay.isOpen, hopen])]
  simp

/-- Whether an item is in its last stay, which is open. -/
def Item.Stands (item : Item) : Prop :=
  ∃ earlier last, item.history = earlier ++ [last] ∧ last.exitedAt = none ∧
    last.status = item.status

end Stageflow
