import Stageflow.Element.Rule
import Stageflow.Event
import Stageflow.Fault
import Stageflow.Sorted

/-!
# Rules and watches

Which rules an event triggers, and the watches that deferred rules arm. A watch belongs to one item
and one rule; arming again replaces it where it stands.
-/

namespace Stageflow

/-- An armed deferred rule of an item. -/
structure Watch where
  item : String
  team : String
  rule : String
  workflowVersion : Int
  status : String
  armedAt : Instant
  dueAt : Instant
  trigger : Event
  deriving Repr

/-- Armed watches by item and rule. -/
abbrev Watches := Table (String × String) Watch

/-- What a watch is stored under. -/
def Watch.key (watch : Watch) : String × String := (watch.item, watch.rule)

/-- The rules of a version of a workflow. -/
abbrev RuleBook := List Rule

namespace RuleBook

/-- The deferred rules with a trigger. -/
def deferred (rules : RuleBook) (trigger : String) : List Rule :=
  rules.filter fun r => r.deferred && r.trigger = trigger

/-- The immediate rules with a trigger. -/
def immediate (rules : RuleBook) (trigger : String) : List Rule :=
  rules.filter fun r => !r.deferred && r.trigger = trigger

/-- The rule of an id; of a repeated id the last one counts. -/
def rule? (rules : RuleBook) (id : String) : Option Rule := rules.reverse.find? (·.id = id)

end RuleBook

/-- Whether a rule is triggered by an event of its trigger, for an item in a status. A move has to
fit the rule's sources and target, any other event the rule's sources. -/
def Rule.fits (rule : Rule) (event : Event) (status : String) : Bool :=
  match event with
  | .moved m =>
    (rule.target.all fun t => t = m.target) &&
      (rule.sources.isEmpty || m.source.any rule.sources.contains)
  | .signal _ => rule.sources.isEmpty || rule.sources.contains status

namespace Watches

/-- Whether a watch ends because its item moved to another status. -/
def isLeft (m : Moved) (watch : Watch) : Bool :=
  watch.item = m.item && watch.status ≠ m.target

/-- The watches that a move ends. -/
def left (watches : Watches) (m : Moved) : Watches := watches.select fun _ w => isLeft m w

/-- The watches that a move keeps. -/
def stay (watches : Watches) (m : Moved) : Watches := watches.select fun _ w => !isLeft m w

/-- Arms a watch. An armed one is kept unless it is to be replaced. -/
def arm (watches : Watches) (watch : Watch) (replace : Bool) : Option Watches :=
  if watches.has watch.key && !replace then none else some (watches.put watch.key watch)

theorem eq_put_of_arm {watches armed : Watches} {watch : Watch} {replace : Bool}
    (h : watches.arm watch replace = some armed) : armed = watches.put watch.key watch := by
  unfold arm at h
  split at h <;> cases h
  rfl

/-- Whether the due time of a watch cannot be compared with a time. -/
def mix (watches : Watches) (time : Instant) : Bool := watches.values.any (·.dueAt.mixes time)

/-- The watches that are due at a time. -/
def due (watches : Watches) (now : Instant) : List Watch :=
  sortBy (fun a b => a.dueAt.micros ≤ b.dueAt.micros)
    (watches.values.filter fun w => w.dueAt ≤ now)

/-- The watches that are not due at a time. -/
def notDue (watches : Watches) (now : Instant) : Watches :=
  watches.select fun _ w => !decide (w.dueAt ≤ now)

/-- Whether a watch is listed before another: by due time, then item, then rule. -/
def before (a b : Watch) : Bool :=
  if a.dueAt.micros ≠ b.dueAt.micros then a.dueAt.micros < b.dueAt.micros
  else if a.item ≠ b.item then a.item < b.item
  else a.rule ≤ b.rule

/-- The armed watches, of one item or of all, in the order they are listed in, if their due times
can be compared. -/
def listed (watches : Watches) (item : Option String) : Except Fault (List Watch) :=
  let chosen := watches.values.filter fun w => item.all (· = w.item)
  if chosen.any fun a => chosen.any fun b => a.dueAt.mixes b.dueAt then
    .error (.mixedTimes "compare")
  else .ok (sortBy before chosen)

/-- Whether a key is one of an item and, if given, a rule. -/
def isOf (item : String) (rule : Option String) (key : String × String) : Bool :=
  key.1 = item && rule.all (· = key.2)

end Watches

end Stageflow
