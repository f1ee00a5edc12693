import Mathlib.Logic.Relation
import Stageflow.System.Cascade

/-!
# Views of a running system

A `View` is what runs are told by: the clock, the versions of workflows, the items, the watches and
the trace of what happened. It also holds the watches that are out of the table and whose turn has
not come yet. `Step` says all that can happen to a view at once, and `Steps` what can happen in a
run.
-/

namespace Stageflow

/-- Whether a notice tells what became of an item or a watch. -/
def Notice.isTraced : Notice → Bool
  | .dropped .. | .created _ | .committed .. | .handled _ | .armed _ | .left _ | .broken ..
  | .disarmed _ | .collected .. | .promoted .. => true
  | _ => false

/-- Whether a signal is about a watch: about its item, or about its team as a whole. -/
def Signal.concerns (signal : Signal) (watch : Watch) : Bool :=
  match signal.item with
  | none => signal.team = some watch.team
  | some id => watch.item = id

/-- The event that tells of a decided move. -/
def Move.event (move : Move) (item : Item) (actor : Actor) (now : Instant) : Moved where
  item := item.id
  team := item.team
  workflowVersion := item.workflowVersion
  source := some item.status
  target := move.route.target
  sourceStage := some move.source.id
  targetStage := move.target.id
  actor := actor.name
  time := now
  depth := actor.depth

/-- A change of an item that leaves it where it is, with every sign-off that it has. -/
structure Item.Amends (new old : Item) : Prop where
  id : new.id = old.id
  team : new.team = old.team
  workflowVersion : new.workflowVersion = old.workflowVersion
  status : new.status = old.status
  complexity : new.complexity = old.complexity
  history : new.history = old.history
  signOffs : ∀ stage role approver, (old.signOffs.of stage).get? role = some approver →
    (new.signOffs.of stage).get? role = some approver

/-- A change of an item's version of its workflow, and of no more than its level with it. -/
structure Item.Rebinds (new old : Item) : Prop where
  id : new.id = old.id
  team : new.team = old.team
  status : new.status = old.status
  history : new.history = old.history
  signOffs : new.signOffs = old.signOffs

/-- Whether a level, if one is given, is one of a workflow. -/
def Workflow.Grades (w : Workflow) (complexity : Option String) : Prop :=
  ∀ level ∈ complexity, (w.level? (some level)).isSome

/-- Whether a registry has a workflow for a team, by a version or as the active one. -/
def Registry.Offers (registry : Registry) (team : String) (w : Workflow) : Prop :=
  (∃ version, registry.version? team version = some w) ∨ registry.active.get? team = some w

/-- Whether an item is bound to a workflow that has its status, and its level if it has one. -/
structure Item.Enters (item : Item) (w : Workflow) : Prop where
  version : item.workflowVersion = w.version
  status : (w.status? item.status).isSome
  level : w.Grades item.complexity

/-- A watch that was taken out of the table: to be promoted at a time, or broken by a signal. -/
inductive Taken where
  | due (watch : Watch) (now : Instant)
  | broken (watch : Watch) (signal : Signal)

/-- What runs are told by. -/
structure View where
  clock : Instant
  limit : Int
  wired : Bool
  registry : Registry
  items : Items
  watches : Watches
  rules : Table (String × Int) RuleBook
  trace : List Notice
  taken : List Taken

/-! ## The view of a system -/

namespace System

/-- What happened to items and watches, newest first. -/
def trace (s : System) : List Notice := s.journal.filter (·.isTraced)

/-- Whether automation is the first to be told of events. -/
def isWired (s : System) : Bool :=
  !s.dispatcher.closed && s.dispatcher.subscribers.head? = some .automation

/-- The view of a system while some watches are out of the table. -/
def view (s : System) (taken : List Taken) : View where
  clock := s.clock
  limit := s.settings.maxCascadeDepth
  wired := s.isWired
  registry := s.registry
  items := s.items
  watches := s.automation.watches
  rules := s.automation.rules
  trace := s.trace
  taken

end System

namespace View

/-! ## What happens to views -/

/-- The view after a notice. -/
def log (v : View) (notice : Notice) : View := { v with trace := notice :: v.trace }

/-- The view after some notices. -/
def logAll (v : View) (notices : List Notice) : View :=
  { v with trace := notices.reverse ++ v.trace }

/-- The view after an item is written. -/
def store (v : View) (item : Item) : View := { v with items := v.items.put item.id item }

/-- Automation as far as it is in view. -/
def automation (v : View) : Automation := { watches := v.watches, rules := v.rules }

/-- The view after automation is told of a move: too deep a move is dropped, and any other one ends
the watches of the status that was left. -/
def hear (v : View) (m : Moved) : View :=
  if v.limit < m.depth then v.log (.dropped (.moved m) v.limit)
  else
    { v.log (.handled (.moved m)) with watches := v.watches.stay m }.logAll
      ((v.watches.left m).values.map .left)

/-- The view after a move is announced, as far as automation is told of it first. -/
def told (v : View) (m : Moved) : View := if v.wired then v.hear m else v

/-- The event that tells of a new item. -/
def birth (v : View) (w : Workflow) (team id : String) (stage : Stage) (actor : Actor) : Moved where
  item := id
  team
  workflowVersion := w.version
  source := none
  target := w.initialStatus
  sourceStage := none
  targetStage := stage.id
  actor := actor.name
  time := v.clock
  depth := actor.depth

/-- The view after an item is created. -/
def create (v : View) (w : Workflow) (team id : String) (complexity : Option String)
    (attributes : Fields) (stage : Stage) (actor : Actor) : View :=
  let item := { w.newItem id complexity attributes stage.id v.clock with version := 1 }
  let m := v.birth w team id stage actor
  ((v.store item).log (.created m)).told m

/-- An item after a decided move. -/
def movedItem (v : View) (item : Item) (move : Move) : Item :=
  { item.moveTo move.route.target move.target.id v.clock with version := item.version + 1 }

/-- The view after a decided move. -/
def commit (v : View) (item : Item) (move : Move) (actor : Actor) : View :=
  let m := move.event item actor v.clock
  ((v.store (v.movedItem item move)).log (.committed item m)).told m

/-- The watches that a signal breaks. -/
def brokenBy (v : View) (signal : Signal) : List Watch :=
  (Run.brokenBy v.automation signal signal.concerns).map (·.1)

/-- Whether a signal breaks a watch: it is about the watch, and the watch's rule names its type. -/
def breaks (v : View) (signal : Signal) (watch : Watch) : Bool :=
  signal.concerns watch &&
    (Run.ruleOf? v.automation watch).any fun rule => rule.breakOn.contains signal.type

theorem brokenBy_eq (v : View) (signal : Signal) :
    v.brokenBy signal = v.watches.values.filter (v.breaks signal) := by
  unfold View.brokenBy Run.brokenBy
  change List.map _ (List.filterMap _ v.watches.values) = _
  induction v.watches.values with
  | nil => rfl
  | cons watch rest ih =>
    cases hconcerns : signal.concerns watch with
    | false => simpa [List.filterMap_cons, breaks, hconcerns] using ih
    | true =>
      cases hrule : Run.ruleOf? v.automation watch with
      | none => simpa [List.filterMap_cons, breaks, hconcerns, hrule] using ih
      | some rule =>
        by_cases htype : signal.type ∈ rule.breakOn
        · simpa [List.filterMap_cons, breaks, hconcerns, hrule, htype] using ih
        · simpa [List.filterMap_cons, breaks, hconcerns, hrule, htype] using ih

/-- The view after a signal is taken in: the watches it breaks are out of the table. -/
def heed (v : View) (signal : Signal) : View :=
  { v.log (.handled (.signal signal)) with
    watches := v.watches.select fun key _ => !(v.brokenBy signal).any fun w => w.key = key
    taken := (v.brokenBy signal).map (.broken · signal) ++ v.taken }

/-- The view after a watch is armed. -/
def arm (v : View) (watch : Watch) : View :=
  { v.log (.armed watch) with watches := v.watches.put watch.key watch }

/-- The view after the watches that are due are taken out of the table. -/
def collect (v : View) (now : Instant) : View :=
  { v.log (.collected (v.watches.due now) now) with
    watches := v.watches.notDue now
    taken := (v.watches.due now).map (.due · now) ++ v.taken }

/-- The view after watches of an item are ended on request. -/
def disarm (v : View) (item : String) (rule : Option String) : View :=
  { v with watches := v.watches.select fun key _ => !Watches.isOf item rule key }.logAll
    ((v.watches.select fun key _ => Watches.isOf item rule key).values.map .disarmed)

/-- Whether an event is what its issuer knows at the time: it happens now, and a moved item exists.
-/
def Genuine (v : View) : Event → Prop
  | .moved m => m.time = v.clock ∧ v.items.has m.item
  | .signal signal => signal.time.getD v.clock = v.clock

end View

/-- On what terms a run goes: whether its events are genuine and its clock never goes back, and
which items are not bound to other versions. -/
structure Terms where
  timely : Prop
  kept : String → Prop

/-- The terms that every run goes by. -/
def Terms.loose : Terms := ⟨False, fun _ => False⟩

/-- What can happen to a view at once. -/
inductive Step (terms : Terms) : View → View → Prop
  | amended {v : View} {old new : Item} (stored : v.items.get? old.id = some old)
      (amends : new.Amends old) : Step terms v (v.store new)
  | rebound {v : View} {w : Workflow} {old new : Item} (free : ¬ terms.kept old.id)
      (stored : v.items.get? old.id = some old) (rebinds : new.Rebinds old)
      (offered : v.registry.Offers old.team w) (enters : new.Enters w) : Step terms v (v.store new)
  | created {v : View} {w : Workflow} {team id : String} {complexity : Option String}
      {attributes : Fields} {stage : Stage} {actor : Actor}
      (active : v.registry.active.get? team = some w)
      (placed : w.stageOf w.initialStatus = .ok stage) (free : v.items.get? id = none)
      (graded : w.Grades complexity) :
      Step terms v (v.create w team id complexity attributes stage actor)
  | committed {v : View} {w : Workflow} {item : Item} {target : Json} {move : Move} {actor : Actor}
      (stored : v.items.get? item.id = some item)
      (bound : v.registry.version? item.team item.workflowVersion = some w)
      (decided : w.decide item target = .ok move) : Step terms v (v.commit item move actor)
  | heard {v : View} {m : Moved} (genuine : terms.timely → v.Genuine (.moved m)) :
      Step terms v (v.hear m)
  | ignored {v : View} {signal : Signal} (deep : v.limit < signal.depth) :
      Step terms v (v.log (.dropped (.signal signal) v.limit))
  | heeded {v : View} {signal : Signal} (known : ∀ id ∈ signal.item, v.items.has id) :
      Step terms v (v.heed signal)
  | unknown {v : View} {signal : Signal} {id : String} (about : signal.item = some id)
      (unknown : v.items.get? id = none) : Step terms v (v.log (.handled (.signal signal)))
  | broke {v : View} {watch : Watch} {signal : Signal} {rest : List Taken}
      (taken : v.taken = .broken watch signal :: rest) :
      Step terms v { v.log (.broken watch signal) with taken := rest }
  | learned {v : View} {w : Workflow} {team : String} {version : Int}
      (bound : v.registry.version? team version = some w)
      (free : v.rules.get? (team, version) = none) :
      Step terms v { v with rules := v.rules.put (team, version) w.rules }
  | armed {v : View} {watch : Watch} {book : RuleBook}
      (known : v.rules.get? (watch.team, watch.workflowVersion) = some book)
      (genuine : terms.timely → watch.armedAt = v.clock ∧ v.items.has watch.item) :
      Step terms v (v.arm watch)
  | collected {v : View} {now : Instant} (timely : terms.timely → now = v.clock)
      (idle : v.taken = []) : Step terms v (v.collect now)
  | promoted {v : View} {watch : Watch} {now : Instant} {rest : List Taken} {item : Item}
      {rule : Rule} (taken : v.taken = .due watch now :: rest)
      (stored : v.items.get? watch.item = some item) (stays : item.status = watch.status)
      (ruled : Run.ruleOf? v.automation watch = some rule) :
      Step terms v { v.log (.promoted watch now) with taken := rest }
  | abandoned {v : View} {watch : Taken} {rest : List Taken} (taken : v.taken = watch :: rest) :
      Step terms v { v with taken := rest }
  | disarmed {v : View} (item : String) (rule : Option String) : Step terms v (v.disarm item rule)
  | published {v : View} {w : Workflow} {merged : MergedDocument}
      (next : w.version = v.registry.nextVersion w.team)
      (compiled : merged.compile w.version = .ok w) :
      Step terms v { v with registry := v.registry.publish w }
  | elapsed {v : View} {clock : Instant} (timely : terms.timely → v.clock.micros ≤ clock.micros) :
      Step terms v { v with clock }

/-- What can happen to a view in a run. -/
abbrev Steps (terms : Terms) : View → View → Prop := Relation.ReflTransGen (Step terms)

end Stageflow
