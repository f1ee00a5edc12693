import Stageflow.Fault
import Stageflow.Item.Change

/-!
# Stored items

Items by id. A write names the version that it is based on, and is refused unless that one is
stored; an accepted write counts the version up by one.
-/

namespace Stageflow

/-- Items by id, in the order of their creation. -/
abbrev Items := Table String Item

namespace Items

/-- Stores a new item, at version one. -/
def create (items : Items) (item : Item) : Except Fault (Item × Items) :=
  if items.has item.id then .error (.itemExists item.id)
  else
    let stored := { item with version := 1 }
    .ok (stored, items.put item.id stored)

/-- The stored item of an id. -/
def load (items : Items) (id : String) : Except Fault Item :=
  match items.get? id with
  | some item => .ok item
  | none => .error (.itemMissing id)

/-- Replaces a stored item that has the expected version. -/
def save (items : Items) (item : Item) (expected : Int) : Except Fault (Item × Items) :=
  match items.get? item.id with
  | none => .error (.itemMissing item.id)
  | some current =>
    if current.version ≠ expected then .error (.stale item.id expected current.version)
    else
      let stored := { item with version := expected + 1 }
      .ok (stored, items.put item.id stored)

/-- The ids of the items of a team, or of all, by code point. -/
def idsOf (items : Items) (team : Option String) : List String :=
  Text.sorted ((items.values.filter fun i => team.all (· = i.team)).map (·.id))

end Items

end Stageflow
