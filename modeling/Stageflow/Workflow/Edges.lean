import Stageflow.Element.Transition
import Stageflow.Text.Order

/-!
# The table of moves

`Edges.ofTransitions` expands declarations into the table from each status to its destinations, and
`Edges.reachable` follows that table.
-/

namespace Stageflow

/-- The destinations of each status, by code point. -/
abbrev Edges := Table String (List String)

namespace Edges

/-- The destinations of a status; an unknown status has none. -/
def destinations (edges : Edges) (status : String) : List String := (edges.get? status).getD []

/-- Whether a move is in the table. -/
def allows (edges : Edges) (source target : String) : Bool :=
  (edges.destinations source).contains target

end Edges

/-- Whether a declaration covers the moves from a status. -/
def Transition.leadsFrom (t : Transition) (status : String) : Bool :=
  if t.isWildcard then !t.exceptions.contains status else t.source = status

namespace Edges

/-- Adds the moves of a declaration to the known statuses. -/
def add (known : List String) (edges : Edges) (t : Transition) : Edges :=
  let targets := t.targets.filter known.contains
  edges.map fun p =>
    if t.leadsFrom p.1 then (p.1, Text.sortedSet (p.2 ++ targets)) else p

/-- The table of some declarations on some statuses. Endpoints that are no status are dropped. -/
def ofTransitions (transitions : List Transition) (statuses : List String) : Edges :=
  transitions.foldl (add statuses) (statuses.eraseDups.map fun s => (s, []))

/-- Whether some other status leads to one. -/
def hasEntry (edges : Edges) (status : String) : Bool :=
  edges.any fun p => p.1 ≠ status && p.2.contains status

/-- The destinations of a frontier that have not been seen. -/
def fresh (edges : Edges) (seen frontier : List String) : List String :=
  (frontier.flatMap edges.destinations).eraseDups.filter fun s => !seen.contains s

/-- Widens what has been seen by the moves from a frontier, until nothing new comes. The fuel bounds
the number of rounds. -/
def spread (edges : Edges) : Nat → List String → List String → List String
  | 0, seen, _ => seen
  | fuel + 1, seen, frontier =>
    let new := edges.fresh seen frontier
    if new.isEmpty then seen else spread edges fuel (seen ++ new) new

/-- The statuses that moves lead to from one, itself included. Every round but the last sees a
destination of the table for the first time. -/
def reachable (edges : Edges) (start : String) : List String :=
  edges.spread ((edges.flatMap (·.2)).length + 1) [start] [start]

end Edges

end Stageflow
