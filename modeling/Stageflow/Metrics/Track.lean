import Stageflow.Element.Threshold
import Stageflow.Event
import Stageflow.Fault

/-!
# Flow metrics

What is measured of an item from the events of its moves: its visits to stages, how often it moved
and how often it came back to a stage, and when it was completed. Durations are reported in hours,
and there is none between times that cannot be subtracted.
-/

namespace Stageflow

/-- The hours from one instant to another. -/
def Instant.hoursTo (start finish : Instant) : Except Fault Binary64 :=
  if start.mixes finish then .error (.mixedTimes "subtract")
  else .ok (Span.hours (start.spanTo finish))

/-- A visit to a stage; without an end it is still open. -/
structure Visit where
  stage : String
  enteredAt : Instant
  exitedAt : Option Instant := none
  deriving DecidableEq, Repr

/-- What is measured of an item. -/
structure Track where
  team : String
  workflowVersion : Int
  createdAt : Instant
  visits : List Visit
  transitions : Nat := 0
  loopBacks : Nat := 0
  completedAt : Option Instant := none
  deriving DecidableEq, Repr

namespace Track

/-- The open visit at the end. -/
def currentVisit? (track : Track) : Option Visit :=
  track.visits.getLast?.filter (·.exitedAt.isNone)

/-- Visits with the last one ended, if that one is open. -/
def closeLast (time : Instant) : List Visit → List Visit
  | [] => []
  | [visit] => [if visit.exitedAt.isNone then { visit with exitedAt := some time } else visit]
  | visit :: next :: rest => visit :: closeLast time (next :: rest)

/-- The track that starts with an event. -/
def start (m : Moved) : Track where
  team := m.team
  workflowVersion := m.workflowVersion
  createdAt := m.time
  visits := [⟨m.targetStage, m.time, none⟩]

/-- The track with a change of stage, if the event is one. -/
def enterStage (track : Track) (m : Moved) : Track :=
  if m.sourceStage = some m.targetStage then track
  else
    let back := track.visits.any (·.stage = m.targetStage)
    { track with
      visits := closeLast m.time track.visits ++ [⟨m.targetStage, m.time, none⟩]
      loopBacks := if back then track.loopBacks + 1 else track.loopBacks }

/-- The track with a move; `terminal` says whether the stage it enters is. -/
def move (track : Track) (m : Moved) (terminal : Bool) : Track :=
  let moved := { track with
    workflowVersion := m.workflowVersion, transitions := track.transitions + 1 }.enterStage m
  { moved with
    completedAt :=
      if terminal then moved.completedAt.orElse fun _ => some m.time else moved.completedAt }

/-- Hours from the creation to the completion. -/
def cycleTime? (track : Track) : Except Fault (Option Binary64) :=
  match track.completedAt with
  | none => .ok none
  | some time => (track.createdAt.hoursTo time).map some

/-- The fraction of the moves that came back to a stage. -/
def loopBackRate (track : Track) : Binary64 :=
  if track.transitions = 0 then .zero false
  else .ofQuotient track.loopBacks track.transitions

/-- Hours spent in each stage; the open visit counts up to now. -/
def stageHours (track : Track) (now : Instant) : Except Fault (Table String Binary64) :=
  track.visits.foldlM (fun table visit => do
    let hours ← visit.enteredAt.hoursTo (visit.exitedAt.getD now)
    return table.put visit.stage (((table.get? visit.stage).getD (.zero false)).add hours)) []

/-- The measured value of a metric, and the count that tells one breach of its limit from the next;
nothing if the metric does not apply. -/
def measure? (track : Track) (threshold : Threshold) (now : Instant) :
    Except Fault (Option (Binary64 × Nat)) :=
  match threshold.metric with
  | .stageDuration =>
    match track.currentVisit?.filter fun visit => threshold.stage.alike (.str visit.stage) with
    | none => .ok none
    | some visit =>
      (visit.enteredAt.hoursTo now).map fun hours => some (hours, track.visits.length - 1)
  | .cycleTime =>
    if track.completedAt.isSome then .ok none
    else (track.createdAt.hoursTo now).map fun hours => some (hours, 0)
  | .loopBackRate =>
    .ok (if track.transitions = 0 then none else some (track.loopBackRate, track.loopBacks))

end Track

/-- A threshold that is kept for a measured item. -/
structure Limit where
  item : String
  track : Track
  threshold : Threshold
  deriving Repr

/-- What a threshold reports of an item once. -/
abbrev AlertKey := String × String × Nat

/-- Everything measured. -/
structure Metrics where
  tracks : Table String Track := []
  counts : Table String (Table (String × String) Nat) := []
  alerted : List AlertKey := []
  deriving Repr

namespace Metrics

/-- One more move of a team's items between two statuses. -/
def count (metrics : Metrics) (team source target : String) : Metrics :=
  let counts := (metrics.counts.get? team).getD []
  let count := (counts.get? (source, target)).getD 0 + 1
  { metrics with counts := metrics.counts.put team (counts.put (source, target) count) }

/-- Takes in a move. An item that was created, or is not known yet, starts a track. The answer says
whether the event counts as a move. -/
def record (metrics : Metrics) (m : Moved) (terminal : Bool) : Metrics × Bool :=
  let known := if m.source.isNone then none else metrics.tracks.get? m.item
  let track := known.getD (.start m)
  match m.source with
  | none => ({ metrics with tracks := metrics.tracks.put m.item track }, false)
  | some source =>
    (({ metrics with tracks := metrics.tracks.put m.item (track.move m terminal) }).count
      m.team source m.target, true)

/-- The alert of a threshold for an item, with a measured value and the count of its breach. -/
def alert (limit : Limit) (value : Binary64) (visit : Nat) (now : Instant) (depth : Int) :
    AlertKey × Signal :=
  ((limit.item, limit.threshold.id, visit), {
    type := "metric_alert"
    item := some limit.item
    team := some limit.track.team
    payload := [
      ("threshold", .str limit.threshold.id),
      ("metric", .str limit.threshold.metric.name),
      ("stage", limit.threshold.stage),
      ("value", .real (value.roundPlaces 3)),
      ("limit", .real limit.threshold.limit)]
    time := some now
    depth })

/-- The alert of a threshold for an item, unless it is within the limit or reported already. -/
def alert? (metrics : Metrics) (limit : Limit) (now : Instant) (depth : Int) :
    Except Fault (Option (AlertKey × Signal)) := do
  match ← limit.track.measure? limit.threshold now with
  | none => return none
  | some (value, visit) =>
    let (key, signal) := alert limit value visit now depth
    if value.le limit.threshold.limit || key ∈ metrics.alerted then return none
    else return some (key, signal)

theorem exists_of_alert? {metrics : Metrics} {limit : Limit} {now : Instant} {depth : Int}
    {new : AlertKey × Signal} (h : metrics.alert? limit now depth = .ok (some new)) :
    ∃ value visit, new = alert limit value visit now depth := by
  unfold alert? at h
  cases hmeasure : limit.track.measure? limit.threshold now with
  | error fault =>
    rw [hmeasure] at h
    cases h
  | ok measured =>
    rw [hmeasure] at h
    cases measured with
    | none => cases h
    | some p =>
      change (if _ then _ else _) = _ at h
      split at h <;> cases h
      exact ⟨p.1, p.2, rfl⟩

/-- The alerts of thresholds in turn, each recorded as reported, up to one that cannot be measured.
There are none then, but what was recorded stays. -/
def alerts (metrics : Metrics) (now : Instant) (depth : Int) :
    List Limit → Metrics × Except Fault (List Signal)
  | [] => (metrics, .ok [])
  | limit :: rest =>
    match metrics.alert? limit now depth with
    | .error fault => (metrics, .error fault)
    | .ok none => metrics.alerts now depth rest
    | .ok (some (key, signal)) =>
      let (metrics, signals) :=
        ({ metrics with alerted := key :: metrics.alerted }).alerts now depth rest
      (metrics, signals.map (signal :: ·))

/-- Alerts are of the thresholds that are looked at. -/
theorem exists_of_mem_alerts {metrics : Metrics} {now : Instant} {depth : Int}
    {limits : List Limit} {alerts : List Signal}
    (h : (metrics.alerts now depth limits).2 = .ok alerts) {signal : Signal}
    (mem : signal ∈ alerts) :
    ∃ limit ∈ limits, ∃ value visit, signal = (alert limit value visit now depth).2 := by
  induction limits generalizing metrics alerts with
  | nil =>
    cases h
    cases mem
  | cons limit rest ih =>
    unfold Metrics.alerts at h
    split at h
    · cases h
    · obtain ⟨other, hother, hsignal⟩ := ih h mem
      exact ⟨other, List.mem_cons_of_mem _ hother, hsignal⟩
    · rename_i key first hfirst
      dsimp only at h
      cases hrest : (({ metrics with alerted := key :: metrics.alerted } : Metrics).alerts now depth
        rest).2 with
      | error fault =>
        rw [hrest] at h
        cases h
      | ok signals =>
        rw [hrest] at h
        cases h
        obtain rfl | mem := List.mem_cons.1 mem
        · obtain ⟨value, visit, heq⟩ := exists_of_alert? hfirst
          exact ⟨limit, List.mem_cons_self, value, visit, (Prod.mk.inj heq).2⟩
        · obtain ⟨other, hother, hsignal⟩ := ih hrest mem
          exact ⟨other, List.mem_cons_of_mem _ hother, hsignal⟩

/-- Sums numbers from the left. -/
def total (xs : List Binary64) : Binary64 := xs.foldl .add (.zero false)

/-- The average of some numbers, rounded to decimal places. -/
def average? (places : Nat) (xs : List Binary64) : Option Binary64 :=
  if xs.isEmpty then none else some (((total xs).divNat xs.length).roundPlaces places)

/-- The flow of a team. -/
structure Summary where
  team : String
  items : Nat
  throughput : Nat
  cycleTime : Option Binary64
  loopBackRate : Option Binary64
  transitions : Nat

/-- Sums up the flow of a team. -/
def summary (metrics : Metrics) (team : String) : Except Fault Summary := do
  let tracks := metrics.tracks.values.filter (·.team = team)
  let times ← tracks.filterMapM (·.cycleTime?)
  let rates := (tracks.filter (·.transitions ≠ 0)).map (·.loopBackRate)
  return {
    team
    items := tracks.length
    throughput := times.length
    cycleTime := average? 2 times
    loopBackRate := average? 3 rates
    transitions := (((metrics.counts.get? team).getD []).values).foldl (· + ·) 0 }

end Metrics

end Stageflow
