import Stageflow.System.Actions

/-!
# Cascades

How automation and metrics take in events, and how events are delivered. What an event causes is
announced one level deeper, and automation drops events beyond a depth, so a cascade ends: `cascade`
delivers events over a number of levels, and `publish` takes as many as the limit allows.
-/

namespace Stageflow

namespace Run

/-- Changes the state of automation. -/
def changeAutomation (change : Automation → Automation) : Run Unit :=
  modify fun s => { s with automation := change s.automation }

/-- Replaces the armed watches. -/
def setWatches (watches : Watches) : Run Unit := changeAutomation fun a => { a with watches }

/-! ## Automation -/

/-- The rule book of a version of a workflow, kept from its first use on. -/
def ruleBook (team : String) (version : Int) : Run RuleBook := do
  match (← get).automation.rules.get? (team, version) with
  | some rules => return rules
  | none =>
    let w ← ofExcept ((← get).registry.version team version)
    changeAutomation fun a => { a with rules := a.rules.put (team, version) w.rules }
    return w.rules

/-- The rule that armed a watch. -/
def ruleOf? (a : Automation) (watch : Watch) : Option Rule :=
  (a.rules.get? (watch.team, watch.workflowVersion)).bind fun rules =>
    RuleBook.rule? rules watch.rule

/-- Runs actions of a rule for an item. -/
def runRule (announce : Event → Run Unit) (rule : Rule) (actions : List Action)
    (item team : String) (event : Event) : Run (List Outcome) := do
  note (.ran rule item event)
  runActions announce
    { rule := rule.id, item, team, event, depth := event.depth } actions

/-- Arms the watch of a deferred rule. -/
def arm (rule : Rule) (seconds : Binary64) (event : Event) (item team status : String)
    (version : Int) (replace : Bool) : Run Unit := do
  let s ← get
  let armedAt := event.time?.getD s.clock
  let dueAt ← ofReading (do armedAt.add (← Span.ofSeconds seconds))
  let watch : Watch := {
    item, team, rule := rule.id, workflowVersion := version, status, armedAt, dueAt
    trigger := event }
  match s.automation.watches.arm watch replace with
  | none => pure ()
  | some watches =>
    setWatches watches
    note (.armed watch)

/-- What triggers the rules of an item: the event, and where the item is. -/
structure Trigger where
  event : Event
  item : String
  team : String
  status : String
  workflowVersion : Int

/-- Arms the watch of a rule, if the rule is deferred. -/
def armRule (trigger : Trigger) (replace : Bool) (rule : Rule) : Run Unit :=
  match rule.duration with
  | some seconds =>
    arm rule seconds trigger.event trigger.item trigger.team trigger.status
      trigger.workflowVersion replace
  | none => pure ()

/-- Runs the actions of a rule that is triggered at once. -/
def runImmediate (announce : Event → Run Unit) (trigger : Trigger) (rule : Rule) : Run Unit := do
  let _ ← runRule announce rule rule.actions trigger.item trigger.team trigger.event

/-- Arms the deferred rules that an event fits, and then runs the immediate ones. -/
def runRules (announce : Event → Run Unit) (rules : RuleBook) (trigger : Trigger)
    (replace : Bool) : Run Unit := do
  let fit (rules : List Rule) : List Rule :=
    rules.filter fun r => r.fits trigger.event trigger.status
  (fit (rules.deferred trigger.event.type)).forM (armRule trigger replace)
  (fit (rules.immediate trigger.event.type)).forM (runImmediate announce trigger)

/-- Takes in a move: the watches of a status that was left end without a word. -/
def handleMoved (announce : Event → Run Unit) (m : Moved) : Run Unit := do
  let watches := (← get).automation.watches
  setWatches (watches.stay m)
  (watches.left m).values.forM fun watch => note (.left watch)
  let rules ← ruleBook m.team m.workflowVersion
  runRules announce rules ⟨.moved m, m.item, m.team, m.target, m.workflowVersion⟩ true

/-- The watches that a signal breaks, with their rules: those selected whose rule names its type. -/
def brokenBy (a : Automation) (signal : Signal) (selected : Watch → Bool) : List (Watch × Rule) :=
  a.watches.values.filterMap fun watch =>
    if selected watch then
      (ruleOf? a watch).bind fun rule =>
        if rule.breakOn.contains signal.type then some (watch, rule) else none
    else none

/-- The selected watches whose rule is not found. -/
def ruleless (a : Automation) (selected : Watch → Bool) : List Watch :=
  a.watches.values.filter fun watch => selected watch && (ruleOf? a watch).isNone

/-- Runs the actions of a rule for its broken watch. -/
def runBroken (announce : Event → Run Unit) (signal : Signal) (broken : Watch × Rule) :
    Run Unit := do
  note (.broken broken.1 signal)
  let _ ← runRule announce broken.2 broken.2.onBreak broken.1.item broken.1.team (.signal signal)

/-- Breaks watches: all of them end, and then their rules' actions for that case run. A watch whose
rule is not found is passed over. -/
def breakWatches (announce : Event → Run Unit) (signal : Signal) (selected : Watch → Bool) :
    Run Unit := do
  let a := (← get).automation
  let broken := brokenBy a signal selected
  setWatches (a.watches.select fun key _ => !broken.any fun p => p.1.key = key)
  (ruleless a selected).forM fun watch => note (.ruleless watch)
  broken.forM (runBroken announce signal)

/-- Takes in a signal. One without an item only breaks watches of its team. -/
def handleSignal (announce : Event → Run Unit) (signal : Signal) : Run Unit := do
  match signal.item with
  | none => breakWatches announce signal fun watch => signal.team = some watch.team
  | some id =>
    match ← attempt (loadItem id) with
    | .error _ => note (.unknownItem signal.type id)
    | .ok item =>
      breakWatches announce signal fun watch => watch.item = item.id
      let rules ← ruleBook item.team item.workflowVersion
      runRules announce rules
        ⟨.signal signal, item.id, item.team, item.status, item.workflowVersion⟩ false

/-- Takes in an event, unless it is too deep. -/
def handleEvent (announce : Event → Run Unit) (event : Event) : Run Unit := do
  let limit := (← get).settings.maxCascadeDepth
  if limit < event.depth then note (.dropped event limit)
  else
    note (.handled event)
    match event with
    | .moved m => handleMoved announce m
    | .signal s => handleSignal announce s

/-- Takes in a signal from outside, stamped with the time if it has none. -/
def ingest (announce : Event → Run Unit) (signal : Signal) : Run Unit := do
  if signal.item.isNone && signal.team.isNone then note (.unaddressed signal.type)
  else
    let now := (← get).clock
    handleEvent announce (.signal { signal with time := some (signal.time.getD now) })

/-! ## Metrics -/

/-- Notes that an alert did not get through. -/
def alertFailed (alert : Signal) : Run Unit := note (.alertSinkFailed (alert.item.getD "None"))

/-- Hands an alert to automation; a failure is noted and goes no further. -/
def ingestAlert (announce : Event → Run Unit) (alert : Signal) : Run Unit := do
  match ← attempt (ingest announce alert) with
  | .ok _ => pure ()
  | .error _ => alertFailed alert

/-- Passes an alert on to where alerts go. -/
def passAlert (announce : Event → Run Unit) (alert : Signal) : AlertSink → Run Unit
  | .automation => ingestAlert announce alert
  | .failing => alertFailed alert
  | .recording | .none => pure ()

/-- Records an alert and passes it on. -/
def deliverAlert (announce : Event → Run Unit) (alert : Signal) : Run Unit := do
  let sink := (← get).sink
  if sink ≠ .none then modify fun s => { s with alerts := s.alerts ++ [alert] }
  passAlert announce alert sink

/-- The items whose limits are checked: the named ones that are measured, or all. -/
def measuredItems (metrics : Metrics) (items : List String) : List (String × Track) :=
  if items.isEmpty then metrics.tracks
  else items.filterMap fun id => (metrics.tracks.get? id).map fun track => (id, track)

/-- The thresholds that are kept for measured items: those of the version of each. -/
def limits (registry : Registry) (measured : List (String × Track)) : List Limit :=
  measured.flatMap fun p =>
    match registry.version? p.2.team p.2.workflowVersion with
    | none => []
    | some w => w.thresholds.map (⟨p.1, p.2, ·⟩)

/-- The thresholds that are kept are those of the versions of measured items. -/
theorem mem_limits {registry : Registry} {measured : List (String × Track)} {limit : Limit} :
    limit ∈ limits registry measured ↔ (limit.item, limit.track) ∈ measured ∧
      ∃ w, registry.version? limit.track.team limit.track.workflowVersion = some w ∧
        limit.threshold ∈ w.thresholds := by
  unfold limits
  rw [List.mem_flatMap]
  constructor
  · rintro ⟨p, hp, hlimit⟩
    split at hlimit
    · cases hlimit
    · rename_i w hw
      obtain ⟨threshold, hthreshold, rfl⟩ := List.mem_map.1 hlimit
      exact ⟨hp, w, hw, hthreshold⟩
  · rintro ⟨hp, w, hw, hthreshold⟩
    refine ⟨_, hp, ?_⟩
    rw [hw]
    exact List.mem_map_of_mem hthreshold

/-- Checks limits and hands the alerts that are new to a sink. -/
def checkWith (sink : Signal → Run Unit) (now : Option Instant) (items : List String)
    (depth : Int) : Run (List Signal) := do
  let s ← get
  let (metrics, found) := s.metrics.alerts (now.getD s.clock) depth
    (limits s.registry (measuredItems s.metrics items))
  modify fun s => { s with metrics }
  let alerts ← ofExcept found
  alerts.forM sink
  return alerts

/-- Checks limits and delivers the alerts that are new. -/
def checkThresholds (announce : Event → Run Unit) : Option Instant → List String → Int →
    Run (List Signal) :=
  checkWith (deliverAlert announce)

/-- Whether a stage is terminal in a version of a workflow. -/
def isTerminalStage (registry : Registry) (team : String) (version : Int) (stage : String) : Bool :=
  ((registry.version? team version).bind fun w => w.stage? stage).any (·.terminal)

/-- Takes a move into the metrics, and checks the limits of its item with a sink for the alerts. -/
def measureWith (sink : Signal → Run Unit) (m : Moved) : Run Unit := do
  let s ← get
  let terminal := isTerminalStage s.registry m.team m.workflowVersion m.targetStage
  let (metrics, counted) := s.metrics.record m terminal
  set { s with metrics }
  if counted then
    let _ ← checkWith sink (some m.time) [m.item] m.depth

/-- Takes a move into the metrics, and checks the limits of its item. -/
def measure (announce : Event → Run Unit) : Moved → Run Unit := measureWith (deliverAlert announce)

/-! ## Delivery -/

/-- Gives an event to a subscriber. -/
def deliver (announce : Event → Run Unit) (event : Event) : Subscriber → Run Unit
  | .automation => handleEvent announce event
  | .metrics =>
    match event with
    | .moved m => measure announce m
    | .signal _ => pure ()
  | .recorder =>
    modify fun s =>
      { s with dispatcher := { s.dispatcher with received := s.dispatcher.received ++ [event] } }
  | .failing name => raise (.down name)

/-- Gives an event to a subscriber; a failure is noted and goes no further. -/
def deliverSafely (announce : Event → Run Unit) (event : Event) (subscriber : Subscriber) :
    Run Unit := do
  note (.delivered subscriber event)
  match ← attempt (deliver announce event subscriber) with
  | .ok _ => pure ()
  | .error _ => note (.subscriberFailed subscriber.name event.type)

/-- Gives an event to all subscribers in order. What they cause is announced as given. -/
def handOver (announce : Event → Run Unit) (event : Event) : Run Unit := do
  let dispatcher := (← get).dispatcher
  if !dispatcher.closed then dispatcher.subscribers.forM (deliverSafely announce event)

/-- Ends with a fault if the wait for calls is refused. -/
def waitUnless (refused : Bool) : Run Unit :=
  if refused then raise .budgetTooLong else pure ()

/-- Gives an event to all subscribers, and waits for their calls. A wait that is out of range is
refused, which does not take the calls back. -/
def publishWith (announce : Event → Run Unit) (event : Event) : Run Unit := do
  let refused := (← get).cannotAwait event
  handOver announce event
  waitUnless refused

/-- Delivers an event and what it causes, over a number of levels. -/
def cascade : Nat → Event → Run Unit
  | 0, _ => pure ()
  | levels + 1, event => publishWith (cascade levels) event

/-- The levels that an event of a depth can cause: automation acts on events up to the limit, and
what it causes is one level deeper. -/
def levels (limit depth : Int) : Nat := (limit + 1 - depth).toNat + 1

theorem levels_pos (limit depth : Int) : 0 < levels limit depth := Nat.succ_pos _

/-- Up to the limit, what an event causes takes one level less. -/
theorem levels_of_le {limit depth : Int} (h : depth ≤ limit) :
    levels limit depth = levels limit (depth + 1) + 1 := by
  unfold levels
  omega

/-- Publishes an event. -/
def publish (event : Event) : Run Unit := do
  cascade (levels (← get).settings.maxCascadeDepth event.depth) event

/-! ## The evaluator -/

/-- A promoted watch, with the outcomes of its actions. -/
structure Fired where
  watch : Watch
  outcomes : List Outcome

/-- Runs the actions of a rule for its promoted watch, and notes that the watch has fired then. -/
def fire (announce : Event → Run Unit) (watch : Watch) (rule : Rule) : Run (List Outcome) := do
  try runRule announce rule rule.actions watch.item watch.team watch.trigger
  finally note (.fired watch)

/-- Promotes a watch that is due, if its item is still in the status it was armed in. -/
def promote (announce : Event → Run Unit) (now : Instant) (watch : Watch) :
    Run (Option Fired) := do
  match ← attempt (loadItem watch.item) with
  | .error _ =>
    note (.watchDiscarded watch.rule watch.item)
    return none
  | .ok item =>
    if item.status ≠ watch.status then return none
    else
      match ruleOf? (← get).automation watch with
      | none =>
        note (.ruleless watch)
        return none
      | some rule =>
        note (.promoted watch now)
        let outcomes ← fire announce watch rule
        return some ⟨watch, outcomes⟩

/-- Runs a hook at the end of a tick; a failure is noted and goes no further. -/
def runHook (announce : Event → Run Unit) (now : Instant) : TickHook → Run Unit
  | .thresholds => do
    match ← attempt (checkThresholds announce (some now) [] 0) with
    | .ok _ => pure ()
    | .error _ => note (.hookFailed "<thresholds>")
  | .failing => note (.hookFailed "<hook>")
  | .notifying =>
    record fun r => { r with sent := r.sent ++ [⟨.str "tick", .str now.toText, .str "info"⟩] }

/-- Promotes the watches that are due, and runs the hooks. -/
def tick (announce : Event → Run Unit) (time : Option Instant) : Run (List Fired) := do
  let s ← get
  let now := time.getD s.clock
  let watches := s.automation.watches
  if watches.mix now then raise (.mixedTimes "compare")
  else
    setWatches (watches.notDue now)
    note (.collected (watches.due now) now)
    let fired ← (watches.due now).filterMapM (promote announce now)
    (← get).automation.hooks.forM (runHook announce now)
    return fired

end Run

end Stageflow
