import Mathlib.Data.List.Flatten
import Stageflow.Proofs.Activations
import Stageflow.Proofs.FlowMetrics
import Stageflow.Proofs.RuleBooks

/-!
# Alerts of limits

Metrics are called to take in events and to check limits, and hand their alerts to a sink, which may
call them again before it comes back. Whatever it does, an alert is given at most once for each
occasion of a threshold. No breach that is found goes without one, as long as all times that are
measured can be told and an item is created once: a call that fails has put down breaches whose
alerts are lost, and an item that is created again begins anew under numbers that were put down
before.

## Main statements

* `Calls.run_apply` — what calls, with all that the sink makes of their alerts, come to.
* `alerts_once` — each occasion has one alert, and each breach that is found has its alert by then.
* `recreation_unreported`, `mixed_times_unreported` — breaches that never have an alert.
-/

namespace Stageflow

/-! ## Calls -/

/-- What metrics are taken with. -/
structure Gauge where
  registry : Registry
  clock : Instant
  metrics : Metrics

namespace System

/-- What the metrics of a system are taken with. -/
def gauge (s : System) : Gauge := ⟨s.registry, s.clock, s.metrics⟩

/-- A system with an alert recorded. -/
def alerted (s : System) (alert : Signal) : System := { s with alerts := s.alerts ++ [alert] }

end System

/-- A call to the metrics: to take in an event, or to check limits. -/
inductive Call where
  | measure (m : Moved)
  | check (now : Option Instant) (items : List String) (depth : Int)

namespace Call

/-- The event that a call takes in. -/
def event? : Call → Option Moved
  | .measure m => some m
  | .check .. => none

/-- The event of an item that a call takes in. -/
def eventOf (item : String) (c : Call) : List Moved := c.event?.toList.filter (·.item = item)

/-- The time at which a call checks limits. -/
def time (g : Gauge) : Call → Instant
  | .measure m => m.time
  | .check now _ _ => now.getD g.clock

/-- The depth of the alerts of a call. -/
def depth : Call → Int
  | .measure m => m.depth
  | .check _ _ depth => depth

/-- The metrics in which a call checks limits. -/
def recorded (g : Gauge) : Call → Metrics
  | .measure m => (g.metrics.recorded g.registry m).1
  | .check .. => g.metrics

/-- The items whose limits a call checks. -/
def measured (g : Gauge) : Call → List (String × Track)
  | .measure m => g.metrics.measuredBy g.registry m
  | .check _ items _ => Run.measuredItems g.metrics items

/-- Whether a call cannot measure what it looks at. -/
def mixed (g : Gauge) (c : Call) : Bool := Breach.mixed g.registry (c.time g) (c.measured g)

/-- The breaches that a call finds. -/
def breaches (g : Gauge) (c : Call) : List Breach :=
  Breach.among g.registry (c.time g) (c.measured g)

/-- The breaches that a call puts down. -/
def news (g : Gauge) (c : Call) : List Breach :=
  Breach.unreported g.metrics.alerted (c.breaches g)

/-- The breaches that a call reports: those that it puts down, if it does not fail. -/
def reported (g : Gauge) (c : Call) : List Breach := if c.mixed g then [] else c.news g

/-- The alerts that a call gives. -/
def alerts (g : Gauge) (c : Call) : List Signal := (c.reported g).map (·.alert (c.time g) c.depth)

/-- What a call leaves. -/
def after (g : Gauge) (c : Call) : Gauge :=
  { g with metrics := ((c.recorded g).report (c.time g) c.depth (c.news g)).1 }

/-- A call, with a sink for its alerts. -/
def run (sink : Signal → Run Unit) : Call → Run Unit
  | .measure m => Run.measureWith sink m
  | .check now items depth => do let _ ← Run.checkWith sink now items depth

/-- A call is one step, and then the sink gets the alerts one after another. A call that fails
leaves what the step has put down. -/
theorem run_apply (sink : Signal → Run Unit) (c : Call) (s : System) :
    c.run sink s =
      if c.mixed s.gauge then
        .error (.raised (.mixedTimes "subtract")) { s with metrics := (c.after s.gauge).metrics }
      else (c.alerts s.gauge).forM sink { s with metrics := (c.after s.gauge).metrics } := by
  have hsettle (found : Metrics × List Signal) (mixed : Bool) :
      (Run.settle sink (found.1, if mixed then .error (.mixedTimes "subtract") else .ok found.2) >>=
        fun _ => pure ()) s =
      if mixed then .error (.raised (.mixedTimes "subtract")) { s with metrics := found.1 }
      else found.2.forM sink { s with metrics := found.1 } := by
    cases mixed with
    | true => rfl
    | false =>
      change ((found.2.forM sink >>= fun _ => pure found.2) >>= fun _ => pure ())
        { s with metrics := found.1 } = _
      rw [Run.bind_apply, Run.bind_apply]
      generalize found.2.forM sink _ = result
      cases result <;> rfl
  have hsame : c.run sink s =
      if c.mixed s.gauge then
        .error (.raised (.mixedTimes "subtract")) { s with metrics := (c.after s.gauge).metrics }
      else ((c.news s.gauge).map (·.alert (c.time s.gauge) c.depth)).forM sink
        { s with metrics := (c.after s.gauge).metrics } := by
    cases c with
    | measure m =>
      change Run.measureWith sink m s = _
      rw [Run.measureWith_apply, Metrics.takeIn_eq]
      exact hsettle _ _
    | check now items depth =>
      change (Run.checkWith sink now items depth >>= fun _ => pure ()) s = _
      rw [Run.bind_apply, Run.checkWith_apply, ← Run.bind_apply, Metrics.check_eq]
      exact hsettle _ _
  rw [hsame]
  unfold alerts reported
  split <;> rfl

end Call

/-- A call, with what it works on. -/
structure Turn where
  gauge : Gauge
  call : Call

namespace Turn

/-- The breaches that are found in a turn. -/
def breaches (turn : Turn) : List Breach := turn.call.breaches turn.gauge

/-- Whether a turn fails. -/
def mixed (turn : Turn) : Bool := turn.call.mixed turn.gauge

/-- The breaches that are put down in a turn. -/
def news (turn : Turn) : List Breach := turn.call.news turn.gauge

/-- The breaches that are reported in a turn. -/
def reported (turn : Turn) : List Breach := turn.call.reported turn.gauge

/-- The alerts of a turn. -/
def alerts (turn : Turn) : List Signal := turn.call.alerts turn.gauge

end Turn

/-- The turns of calls, each on what the ones before it have left. -/
def turns : Gauge → List Call → List Turn
  | _, [] => []
  | g, c :: rest => ⟨g, c⟩ :: turns (c.after g) rest

theorem turns_append (g : Gauge) (first rest : List Call) :
    turns g (first ++ rest) = turns g first ++ turns (first.foldl Call.after g) rest := by
  induction first generalizing g with
  | nil => rfl
  | cons c first ih => exact congrArg (⟨g, c⟩ :: ·) (ih (c.after g))

/-- Calls, and what the sink makes of their alerts: further calls for each, before it comes back.
What is called may depend on what the state is at that time. -/
inductive Calls where
  | done
  | look (next : System → Calls)
  | call (c : Call) (answer : Signal → Calls) (rest : Calls)

namespace Calls

/-- Records an alert and then answers it. -/
def hear (answer : Run Unit) (alert : Signal) : Run Unit := do
  modify (·.alerted alert)
  answer

/-- Calls, with a sink that records each alert and then answers it. A call that fails is followed by
the others. -/
def run : Calls → Run Unit
  | .done => pure ()
  | .look next => do (next (← get)).run
  | .call c answer rest => do
    let _ ← Run.attempt (c.run fun alert => hear (answer alert).run alert)
    rest.run

/-- What comes of alerts that are answered one after another. -/
def answers (answer : Signal → System → List Call × System) :
    List Signal → System → List Call × System
  | [], s => ([], s)
  | alert :: rest, s =>
    let first := answer alert (s.alerted alert)
    let others := answers answer rest first.2
    (first.1 ++ others.1, others.2)

/-- Calls in the order in which they begin, and the state that they leave. -/
def trace : Calls → System → List Call × System
  | .done, s => ([], s)
  | .look next, s => (next s).trace s
  | .call c answer rest, s =>
    let inner := answers (fun alert => (answer alert).trace) (c.alerts s.gauge)
      { s with metrics := (c.after s.gauge).metrics }
    let later := rest.trace inner.2
    (c :: inner.1 ++ later.1, later.2)

/-- The turns of calls, in the order in which they begin. -/
def turns (calls : Calls) (s : System) : List Turn := Stageflow.turns s.gauge (calls.trace s).1

/-- The events of an item that calls take in, in order. -/
def eventsOf (calls : Calls) (s : System) (item : String) : List Moved :=
  (calls.trace s).1.flatMap (Call.eventOf item)

/-- What calls, with all that the sink makes of their alerts, come to. -/
theorem run_apply (calls : Calls) (s : System) : calls.run s = .ok () (calls.trace s).2 := by
  induction calls generalizing s with
  | done => rfl
  | look next ih =>
    change ((get : Run System) >>= fun t => (next t).run) s = _
    rw [Run.get_bind_apply]
    exact ih s s
  | call c answer rest ihAnswer ihRest =>
    have hanswers (alerts : List Signal) (s : System) :
        alerts.forM (fun alert => hear (answer alert).run alert) s =
          .ok () (answers (fun alert => (answer alert).trace) alerts s).2 := by
      induction alerts generalizing s with
      | nil => rfl
      | cons alert alerts ih =>
        have hhear : hear (answer alert).run alert s = .ok ()
            ((answer alert).trace (s.alerted alert)).2 := ihAnswer alert _
        rw [Run.forM_cons_apply, hhear]
        exact ih _
    change (Run.attempt (c.run _) >>= fun _ => rest.run) s = _
    rw [Run.bind_apply, Run.attempt_apply, Call.run_apply, hanswers]
    by_cases hmixed : c.mixed s.gauge
    · have hsilent : c.alerts s.gauge = [] := by simp [Call.alerts, Call.reported, hmixed]
      simp only [hmixed, if_true, trace, hsilent]
      exact ihRest _
    · simp only [hmixed, Bool.false_eq_true, if_false]
      exact ihRest _

/-- Whether calls one after another lead from a system to another one, while some alerts are heard
besides those of their turns. -/
structure Leaves (s : System) (alerts : List Signal) (left : List Call × System) : Prop where
  gauge : left.2.gauge = left.1.foldl Call.after s.gauge
  alerts : left.2.alerts.Perm
    (s.alerts ++ alerts ++ (Stageflow.turns s.gauge left.1).flatMap Turn.alerts)

namespace Leaves

variable {s t u : System} {alerts alerts' : List Signal} {calls calls' : List Call}

theorem append (h : Leaves s alerts (calls, t)) (h' : Leaves t alerts' (calls', u)) :
    Leaves s (alerts ++ alerts') (calls ++ calls', u) := by
  obtain ⟨hgauge, halerts⟩ := h
  obtain ⟨hgauge', halerts'⟩ := h'
  refine ⟨by rw [List.foldl_append, ← hgauge, ← hgauge'], ?_⟩
  simp only [turns_append, List.flatMap_append, ← hgauge]
  refine halerts'.trans (((halerts.append_right _).append_right _).trans ?_)
  simp only [List.append_assoc]
  exact .append_left _ (.append_left _ (List.perm_append_comm_assoc ..))

/-- What is heard first is heard besides. -/
theorem hear {alert : Signal} (h : Leaves (s.alerted alert) alerts (calls, t)) :
    Leaves s (alert :: alerts) (calls, t) :=
  ⟨h.gauge, h.alerts.trans (.of_eq (by simp [System.alerted, System.gauge]))⟩

/-- A call comes before what is made of its alerts. -/
theorem call {c : Call} (h : Leaves { s with metrics := (c.after s.gauge).metrics }
    (c.alerts s.gauge) (calls, t)) : Leaves s [] (c :: calls, t) :=
  ⟨h.gauge, h.alerts.trans (.of_eq (by
    simp [Stageflow.turns, Turn.alerts, System.gauge, Call.after]))⟩

end Leaves

/-- What is left by calls is what they leave one after another, and the sink has heard the alerts of
all turns. -/
theorem leaves_trace (calls : Calls) (s : System) : Leaves s [] (calls.trace s) := by
  induction calls generalizing s with
  | done => exact ⟨rfl, by simp [trace, Stageflow.turns]⟩
  | look next ih => exact ih s s
  | call c answer rest ihAnswer ihRest =>
    have hanswers (alerts : List Signal) (s : System) :
        Leaves s alerts (answers (fun alert => (answer alert).trace) alerts s) := by
      induction alerts generalizing s with
      | nil => exact ⟨rfl, by simp [answers, Stageflow.turns]⟩
      | cons alert alerts ih => exact (ihAnswer alert (s.alerted alert)).hear.append (ih _)
    have hinner := hanswers (c.alerts s.gauge) { s with metrics := (c.after s.gauge).metrics }
    exact hinner.call.append (ihRest _)

end Calls

/-! ## Occasions -/

namespace Track

/-- Whether an occasion of a threshold is one of a track: a visit of its time, the item, or a number
of times that it came back. -/
def Has (track : Track) (threshold : Threshold) (occasion : Occasion) : Prop :=
  match threshold.metric, occasion with
  | .stageDuration, .visit number stage enteredAt => ∃ visit,
    track.visits[number]? = some visit ∧ visit.stage = stage ∧ visit.enteredAt = enteredAt
  | .cycleTime, .item => True
  | .loopBackRate, .loopBacks _ => True
  | _, _ => False

variable {track : Track} {threshold : Threshold} {occasion other : Occasion}

/-- What a threshold measures a track on is one of its occasions. -/
theorem has_of_occasion? (h : track.occasion? threshold = some occasion) :
    track.Has threshold occasion := by
  unfold occasion? at h
  unfold Has
  split at h
  · rename_i hmetric
    obtain ⟨visit, hvisit, rfl⟩ := Option.map_eq_some_iff.1 h
    have hlast : track.visits.getLast? = some visit := by
      have hcurrent := (Option.filter_eq_some_iff.1 hvisit).1
      exact (Option.filter_eq_some_iff.1 hcurrent).1
    simp only [hmetric]
    exact ⟨visit, by rw [← List.getLast?_eq_getElem?, hlast], rfl, rfl⟩
  · rename_i hmetric
    split at h <;> cases h
    simp [hmetric]
  · rename_i hmetric
    split at h <;> cases h
    simp [hmetric]

/-- Occasions of a track for a threshold are told apart by their numbers. -/
theorem Has.unique (h : track.Has threshold occasion) (h' : track.Has threshold other)
    (number : occasion.number = other.number) : occasion = other := by
  unfold Has at h h'
  cases hmetric : threshold.metric <;> cases occasion <;> cases other <;>
    simp only [hmetric, Occasion.number] at h h' number ⊢
  case stageDuration.visit.visit =>
    subst number
    obtain ⟨visit, hvisit, rfl, rfl⟩ := h
    obtain ⟨visit', hvisit', rfl, rfl⟩ := h'
    rw [Option.some.inj (hvisit.symm.trans hvisit')]
  case loopBackRate.loopBacks.loopBacks => rw [number]

theorem exists_closeLast {visits : List Visit} {number : Nat} {visit : Visit} (now : Instant)
    (h : visits[number]? = some visit) : ∃ closed,
      (closeLast now visits)[number]? = some closed ∧ closed.stage = visit.stage ∧
        closed.enteredAt = visit.enteredAt := by
  fun_induction closeLast now visits generalizing number with
  | case1 => cases h
  | case2 only =>
    obtain ⟨rfl, rfl⟩ : number = 0 ∧ only = visit := by
      cases number <;> simp_all
    refine ⟨_, rfl, ?_⟩
    split <;> exact ⟨rfl, rfl⟩
  | case3 first next rest ih =>
    cases number with
    | zero => exact ⟨first, rfl, by simp_all⟩
    | succ number => exact ih h

/-- A move leaves the visits where they are. -/
theorem exists_visit_move {number : Nat} {visit : Visit} (m : Moved) (terminal : Bool)
    (h : track.visits[number]? = some visit) : ∃ left,
      (track.move m terminal).visits[number]? = some left ∧ left.stage = visit.stage ∧
        left.enteredAt = visit.enteredAt := by
  unfold move enterStage
  split
  · exact ⟨visit, h, rfl, rfl⟩
  · obtain ⟨closed, hclosed, hsame⟩ := exists_closeLast m.time h
    refine ⟨closed, ?_, hsame⟩
    exact (List.getElem?_append_left (List.getElem?_eq_some_iff.1 hclosed).1).trans hclosed

/-- A move leaves the occasions of a track. -/
theorem Has.move (h : track.Has threshold occasion) (m : Moved) (terminal : Bool) :
    (track.move m terminal).Has threshold occasion := by
  unfold Has at h ⊢
  split at h
  · obtain ⟨visit, hvisit, rfl, rfl⟩ := h
    obtain ⟨left, hleft, hstage, htime⟩ := exists_visit_move m terminal hvisit
    exact ⟨left, hleft, hstage, htime⟩
  all_goals exact h

/-- A move is made in the team of the track, and binds it to the version of the move. -/
theorem move_binds (track : Track) (m : Moved) (terminal : Bool) :
    (track.move m terminal).team = track.team ∧
      (track.move m terminal).workflowVersion = m.workflowVersion := by
  unfold move enterStage
  split <;> exact ⟨rfl, rfl⟩

end Track

/-! ## Reports -/

/-- Whether events begin with a creation, and there is no other one. -/
def BeginsCreated : List Moved → Prop
  | [] => True
  | first :: later => first.source = none ∧ ∀ m ∈ later, m.source.isSome

theorem beginsCreated_concat {events : List Moved} {m : Moved} (h : BeginsCreated (events ++ [m])) :
    m.source = none ↔ events = [] := by
  cases events with
  | nil => exact ⟨fun _ => rfl, fun _ => h.1⟩
  | cons first later =>
    have hsome : m.source.isSome := h.2 m (by simp)
    exact ⟨fun hnone => by simp [hnone] at hsome, fun hnil => by cases hnil⟩

/-- What is known of an item bound to a workflow when some events of it were taken in and some
breaches were reported. -/
structure Reporting (w : Workflow) (item : String) (events : List Moved) (reported : List Breach)
    (g : Gauge) : Prop where
  alerted : g.metrics.alerted = (reported.map Breach.key).reverse
  distinct : (reported.map Breach.key).Nodup
  keys : g.metrics.tracks.keys.Nodup
  bound : g.registry.version? w.team w.version = some w
  unknown : events = [] → g.metrics.tracks.get? item = none
  held : ∀ track, g.metrics.tracks.get? item = some track →
    track.team = w.team ∧ track.workflowVersion = w.version
  had : ∀ breach ∈ reported, breach.item = item → breach.threshold ∈ w.thresholds ∧
    ∃ track, g.metrics.tracks.get? item = some track ∧
      track.Has breach.threshold breach.occasion

/-- The items whose limits are checked are measured. -/
theorem get?_of_mem_measuredItems {metrics : Metrics} {items : List String}
    (nodup : metrics.tracks.keys.Nodup) {p : String × Track}
    (h : p ∈ Run.measuredItems metrics items) : metrics.tracks.get? p.1 = some p.2 := by
  unfold Run.measuredItems at h
  split at h
  · exact Table.get?_of_mem nodup h
  · obtain ⟨id, -, hid⟩ := List.mem_filterMap.1 h
    obtain ⟨track, htrack, rfl⟩ := Option.map_eq_some_iff.1 hid
    exact htrack

theorem Call.get?_of_mem_measured {g : Gauge} {c : Call}
    (nodup : (c.recorded g).tracks.keys.Nodup) {p : String × Track} (h : p ∈ c.measured g) :
    (c.recorded g).tracks.get? p.1 = some p.2 := by
  cases c with
  | check now items depth => exact get?_of_mem_measuredItems nodup h
  | measure m =>
    change p ∈ g.metrics.measuredBy g.registry m at h
    unfold Metrics.measuredBy at h
    split at h
    · exact get?_of_mem_measuredItems nodup h
    · cases h

namespace Reporting

variable {w : Workflow} {item : String} {events : List Moved} {reported : List Breach} {g : Gauge}
  {c : Call}

/-- Taking in an event of another item keeps what is known. -/
theorem record_other (h : Reporting w item events reported g) {m : Moved} (hitem : m.item ≠ item) :
    Reporting w item events reported
      { g with metrics := (g.metrics.recorded g.registry m).1 } := by
  have htracks := Metrics.tracks_recorded g.registry g.metrics m
  have hsame : (g.metrics.recorded g.registry m).1.tracks.get? item =
      g.metrics.tracks.get? item := by
    rw [htracks, Table.get?_put_of_ne (Ne.symm hitem)]
  exact {
    alerted := (Metrics.alerted_recorded m).trans h.alerted
    distinct := h.distinct
    keys := htracks ▸ Table.nodup_keys_put h.keys
    bound := h.bound
    unknown := fun hnil => hsame.trans (h.unknown hnil)
    held := fun track htrack => h.held track (hsame ▸ htrack)
    had := fun breach hbreach hof => hsame ▸ h.had breach hbreach hof }

/-- Taking in an event of the item that is bound to the workflow keeps what is known. -/
theorem record_own {m : Moved} (h : Reporting w m.item events reported g)
    (begins : BeginsCreated (events ++ [m])) (hteam : m.team = w.team)
    (hversion : m.workflowVersion = w.version) :
    Reporting w m.item (events ++ [m]) reported
      { g with metrics := (g.metrics.recorded g.registry m).1 } := by
  have htracks := Metrics.tracks_recorded g.registry g.metrics m
  generalize htrack : (if m.source.isNone then Track.start m else
    g.metrics.moved g.registry m) = track at htracks
  have hget : (g.metrics.recorded g.registry m).1.tracks.get? m.item = some track := by
    rw [htracks, Table.get?_put_self]
  refine {
    alerted := (Metrics.alerted_recorded m).trans h.alerted
    distinct := h.distinct
    keys := htracks ▸ Table.nodup_keys_put h.keys
    bound := h.bound
    unknown := fun hnil => absurd hnil (by simp)
    held := fun other hother => ?_
    had := fun breach hbreach hof => ?_ }
  · obtain rfl := Option.some.inj (hget.symm.trans hother)
    rw [← htrack]
    split
    · exact ⟨hteam, hversion⟩
    · obtain ⟨hteam', hversion'⟩ := Track.move_binds
        ((g.metrics.tracks.get? m.item).getD (.start m)) m
        (Run.isTerminalStage g.registry m.team m.workflowVersion m.targetStage)
      refine ⟨hteam'.trans ?_, hversion'.trans hversion⟩
      cases hknown : g.metrics.tracks.get? m.item with
      | none => exact hteam
      | some known => exact (h.held known hknown).1
  · obtain ⟨hthreshold, known, hknown, hhas⟩ := h.had breach hbreach hof
    refine ⟨hthreshold, track, hget, ?_⟩
    -- an item with a breach has a track, so this is not its creation
    have hmoved : m.source.isNone = false := by
      by_contra hcreated
      have hnone := h.unknown ((beginsCreated_concat begins).1 (by simpa using hcreated))
      cases hnone.symm.trans hknown
    rw [← htrack, hmoved, Metrics.moved, hknown]
    exact hhas.move m _

/-- What a call takes in keeps what is known, if the events of the item are bound to the workflow.
-/
theorem record (h : Reporting w item events reported g)
    (begins : BeginsCreated (events ++ c.eventOf item))
    (held : ∀ m ∈ c.eventOf item, m.team = w.team ∧ m.workflowVersion = w.version) :
    Reporting w item (events ++ c.eventOf item) reported
      { g with metrics := c.recorded g } := by
  cases c with
  | check => simpa [Call.eventOf, Call.event?, Call.recorded] using h
  | measure m =>
    by_cases hitem : m.item = item
    · subst hitem
      have hevent : Call.eventOf m.item (.measure m) = [m] := by simp [Call.eventOf, Call.event?]
      rw [hevent] at begins held ⊢
      obtain ⟨hteam, hversion⟩ := held m (List.mem_singleton_self m)
      exact h.record_own begins hteam hversion
    · have hevent : Call.eventOf item (.measure m) = [] := by
        simp [Call.eventOf, Call.event?, hitem]
      rw [hevent, List.append_nil]
      exact h.record_other hitem

/-- Reporting the breaches of measured items keeps what is known. -/
theorem report (h : Reporting w item events reported { g with metrics := c.recorded g })
    (measured : ∀ p ∈ c.measured g, (c.recorded g).tracks.get? p.1 = some p.2)
    (alerted : (c.recorded g).alerted = g.metrics.alerted) :
    Reporting w item events (reported ++ c.news g) (c.after g) := by
  have hreported : g.metrics.alerted = (reported.map Breach.key).reverse :=
    alerted.symm.trans h.alerted
  refine {
    alerted := ?_
    distinct := ?_
    keys := h.keys
    bound := h.bound
    unknown := h.unknown
    held := h.held
    had := fun breach hbreach hof => ?_ }
  · change ((c.news g).map Breach.key).reverse ++ (c.recorded g).alerted = _
    rw [alerted, hreported, List.map_append, List.reverse_append]
  · rw [List.map_append]
    refine List.nodup_append.2 ⟨h.distinct, Breach.nodup_unreported _ _, ?_⟩
    rintro key hkey other hother rfl
    obtain ⟨breach, hbreach, rfl⟩ := List.mem_map.1 hother
    refine Breach.key_not_mem_of_unreported hbreach ?_
    rw [hreported]
    exact List.mem_reverse.2 hkey
  · obtain hbreach | hbreach := List.mem_append.1 hbreach
    · exact h.had breach hbreach hof
    · obtain ⟨hmeasured, w', hw', hthreshold, hoccasion, -⟩ :=
        Breach.of_mem_among ((Breach.unreported_sublist _ _).subset hbreach)
      have htrack := measured _ hmeasured
      subst hof
      obtain ⟨hteam, hversion⟩ := h.held _ htrack
      rw [hteam, hversion] at hw'
      obtain rfl : w = w' := Option.some.inj (h.bound.symm.trans hw')
      exact ⟨hthreshold, _, htrack, Track.has_of_occasion? hoccasion⟩

/-- A call keeps what is known. -/
theorem step (h : Reporting w item events reported g)
    (begins : BeginsCreated (events ++ c.eventOf item))
    (held : ∀ m ∈ c.eventOf item, m.team = w.team ∧ m.workflowVersion = w.version) :
    Reporting w item (events ++ c.eventOf item) (reported ++ c.news g) (c.after g) := by
  have hrecord := h.record begins held
  refine hrecord.report (fun p hp => c.get?_of_mem_measured hrecord.keys hp) ?_
  exact hrecord.alerted.trans h.alerted.symm

/-- A breach that a call finds has been reported then, if it is of the item. -/
theorem exists_reported (h : Reporting w item events (reported ++ c.news g) (c.after g))
    (ids : (w.thresholds.map (·.id)).Nodup)
    (alerted : g.metrics.alerted = (reported.map Breach.key).reverse)
    (measured : ∀ p ∈ c.measured g, (c.after g).metrics.tracks.get? p.1 = some p.2)
    {breach : Breach} (found : breach ∈ c.breaches g) (hof : breach.item = item) :
    ∃ other ∈ reported ++ c.news g, other.item = item ∧ other.threshold = breach.threshold ∧
      other.occasion = breach.occasion := by
  obtain ⟨other, hother, hkey⟩ : ∃ other ∈ reported ++ c.news g, other.key = breach.key := by
    obtain hmem | ⟨other, hother, hkey⟩ :=
      Breach.reported_or_unreported g.metrics.alerted found
    · rw [alerted, List.mem_reverse] at hmem
      obtain ⟨other, hother, hkey⟩ := List.mem_map.1 hmem
      exact ⟨other, List.mem_append_left _ hother, hkey⟩
    · exact ⟨other, List.mem_append_right _ hother, hkey⟩
  obtain ⟨hitem, hid, hnumber⟩ : other.item = breach.item ∧
      other.threshold.id = breach.threshold.id ∧
        other.occasion.number = breach.occasion.number := by
    simpa [Breach.key] using hkey
  obtain ⟨hthreshold, track, htrack, hhas⟩ := h.had other hother (hitem.trans hof)
  obtain ⟨hmeasured, w', hw', hthreshold', hoccasion, -⟩ := Breach.of_mem_among found
  have htrack' := measured _ hmeasured
  subst hof
  obtain rfl : track = breach.track := Option.some.inj (htrack.symm.trans htrack')
  obtain ⟨hteam, hversion⟩ := h.held _ htrack
  rw [hteam, hversion] at hw'
  obtain rfl : w = w' := Option.some.inj (h.bound.symm.trans hw')
  have hsame : other.threshold = breach.threshold :=
    List.inj_on_of_nodup_map ids hthreshold hthreshold' hid
  rw [hsame] at hhas
  exact ⟨other, hother, hitem, hsame, hhas.unique (Track.has_of_occasion? hoccasion) hnumber⟩

end Reporting

theorem BeginsCreated.of_append {events later : List Moved} (h : BeginsCreated (events ++ later)) :
    BeginsCreated events := by
  cases events with
  | nil => trivial
  | cons first rest => exact ⟨h.1, fun m hm => h.2 m (List.mem_append_left _ hm)⟩

/-- In all turns, no two breaches are reported alike, and each breach of the item that is found is
reported in its turn or an earlier one. -/
theorem Reporting.turns {w : Workflow} {item : String} {events : List Moved}
    {reported : List Breach} {g : Gauge} {calls : List Call}
    (h : Reporting w item events reported g) (ids : (w.thresholds.map (·.id)).Nodup)
    (begins : BeginsCreated (events ++ calls.flatMap (Call.eventOf item)))
    (held : ∀ m ∈ calls.flatMap (Call.eventOf item), m.team = w.team ∧
      m.workflowVersion = w.version) :
    ((reported ++ (turns g calls).flatMap Turn.news).map Breach.key).Nodup ∧
      ∀ before turn later, Stageflow.turns g calls = before ++ turn :: later →
        ∀ breach ∈ turn.breaches, breach.item = item →
          ∃ other ∈ reported ++ (before ++ [turn]).flatMap Turn.news, other.item = item ∧
            other.threshold = breach.threshold ∧ other.occasion = breach.occasion := by
  induction calls generalizing events reported g with
  | nil =>
    refine ⟨by simpa [Stageflow.turns] using h.distinct, fun before turn later hturns => ?_⟩
    simp [Stageflow.turns] at hturns
  | cons c calls ih =>
    rw [List.flatMap_cons] at begins held
    rw [← List.append_assoc] at begins
    obtain ⟨hheld, hlater⟩ := List.forall_mem_append.1 held
    have hrecord := h.record begins.of_append hheld
    have hstep := h.step begins.of_append hheld
    obtain ⟨hdistinct, hreported⟩ := ih hstep begins hlater
    refine ⟨by simpa [Stageflow.turns, Turn.news] using hdistinct, ?_⟩
    intro before turn later hturns breach hbreach hof
    cases before with
    | nil =>
      obtain ⟨rfl, -⟩ := List.cons_eq_cons.1 hturns
      have hfound := hstep.exists_reported ids h.alerted
        (fun p hp => c.get?_of_mem_measured hrecord.keys hp) hbreach hof
      simpa [Turn.news] using hfound
    | cons first before =>
      obtain ⟨rfl, hrest⟩ := List.cons_eq_cons.1 hturns
      have hfound := hreported before turn later hrest breach hbreach hof
      simpa [Turn.news] using hfound

/-! ## Thresholds of a workflow -/

/-- The thresholds that are built of a document have different ids. -/
theorem distinct_thresholds {source : Source} {team : String} {version : Int} {w : Workflow}
    (h : source.build team version = .ok w) : (w.thresholds.map (·.id)).Nodup :=
  (build_distinct h).thresholds

/-- What is reported in a turn is put down, and the other way round unless the turn fails. -/
theorem Turn.reported_sublist (turn : Turn) : turn.reported.Sublist turn.news := by
  change (if turn.mixed then [] else turn.news).Sublist turn.news
  split
  · exact List.nil_sublist _
  · exact .refl _

theorem Turn.reported_eq {turn : Turn} (measurable : turn.mixed = false) :
    turn.reported = turn.news := if_neg (ne_true_of_eq_false measurable)

/-- Whatever calls are made to metrics that start afresh, and whatever further calls the sink makes
of their alerts, the sink hears the alerts of all turns and no others. No two alerts are of the same
item, threshold and occasion. If an item is created once, and first, and is bound to an activated
workflow throughout, and no call fails because times are mixed, each breach of its thresholds that
is found in a turn has its alert, for this very item, threshold and occasion, in that turn or an
earlier one. -/
theorem alerts_once {u u' : System} {team : String} {w : Workflow} (s : System) (item : String)
    (calls : Calls) (accepted : Run.activate team u = .ok w u')
    (bound : s.registry.version? w.team w.version = some w) (fresh : s.metrics = {})
    (begins : BeginsCreated (calls.eventsOf s item))
    (held : ∀ m ∈ calls.eventsOf s item, m.team = w.team ∧ m.workflowVersion = w.version) :
    ∃ t, calls.run s = .ok () t ∧
      t.alerts.Perm (s.alerts ++ (calls.turns s).flatMap Turn.alerts) ∧
      (((calls.turns s).flatMap Turn.reported).map fun breach =>
        (breach.item, breach.threshold.id, breach.occasion)).Nodup ∧
      ((∀ turn ∈ calls.turns s, turn.mixed = false) →
        ∀ before turn later, calls.turns s = before ++ turn :: later →
          ∀ breach ∈ turn.breaches, breach.item = item →
            ∃ other ∈ (before ++ [turn]).flatMap Turn.reported, other.item = item ∧
              other.threshold = breach.threshold ∧ other.occasion = breach.occasion) := by
  have hstart : Reporting w item [] [] s.gauge := by
    have hmetrics : s.gauge.metrics = {} := fresh
    exact {
      alerted := by rw [hmetrics]; rfl
      distinct := List.nodup_nil
      keys := by rw [hmetrics]; exact List.nodup_nil
      bound := bound
      unknown := fun _ => by rw [hmetrics]; rfl
      held := fun track htrack => by rw [hmetrics] at htrack; cases htrack
      had := fun _ hbreach => by cases hbreach }
  obtain ⟨hdistinct, hreported⟩ := hstart.turns
    (distinct_thresholds (Run.activate_eq_ok accepted).1) begins held
  have hheard := (calls.leaves_trace s).alerts
  rw [List.append_nil] at hheard
  refine ⟨_, calls.run_apply s, hheard, ?_, fun measurable before turn later hturns => ?_⟩
  · -- what is put down of a breach is a function of its item, threshold and occasion
    refine List.Nodup.of_map (fun p => (p.1, p.2.1, p.2.2.number)) ?_
    rw [List.map_map]
    exact hdistinct.sublist ((List.Sublist.flatMap_right _ fun turn _ =>
      turn.reported_sublist).map Breach.key)
  · have hsame : (before ++ [turn]).flatMap Turn.reported = (before ++ [turn]).flatMap Turn.news :=
      List.flatMap_congr fun other hother => Turn.reported_eq (measurable other (by
        rw [hturns, List.append_cons]
        exact List.mem_append_left _ hother))
    rw [hsame]
    exact hreported before turn later hturns

/-- An item may be at work for an hour, and come back never. -/
def sampleLimits : List Json :=
  [.obj [("id", .str "slow"), ("metric", .str "stage_duration"), ("stage", .str "work"),
      ("threshold", .int 1)],
    .obj [("id", .str "restless"), ("metric", .str "loop_back_rate"), ("threshold", .int 0)]]

/-- A check that finds an item late. The sink has it done and taken up again at once; of that it
hears in turn, and has the limits checked two hours later. -/
def nestedCalls : Calls :=
  let leave := Call.measure (flowing "i" (some ("A", "work")) ("Z", "done") 2)
  let comeBack := Call.measure (flowing "i" (some ("Z", "done")) ("A", "work") 2)
  let check (hours : Int) := Call.check (some (atHour hours)) [] 0
  .call (.measure (flowing "i" none ("A", "work") 0)) (fun _ => .done) <|
  .call (check 2) (fun _ => .call leave (fun _ => .done) <|
    .call comeBack (fun _ => .call (check 4) (fun _ => .done) .done) .done) <|
  .call (check 5) (fun _ => .done) .done

/-- A system in which limits are set for the items of the sample team, and nothing is measured. -/
def limited (limits : List Json) : System :=
  { System.through {} [.putDocument (sampleDocument [] limits), .activate "t"] with
    metrics := {}, alerts := [] }

theorem after_activate {s u : System} {team : String} {w : Workflow}
    (accepted : Run.activate team s = .ok w u) : (Operation.activate team).perform.after s = u := by
  change (Run.activate team >>= fun _ => pure ()).after s = u
  unfold Run.after
  rw [Run.bind_apply, accepted]
  rfl

/-- The thresholds and occasions of breaches. -/
def occasions (breaches : List Breach) : List (String × Occasion) :=
  breaches.map fun breach => (breach.threshold.id, breach.occasion)

theorem alerts_once_nested :
    ∃ t, nestedCalls.run (limited sampleLimits) = .ok () t ∧ t.alerts.length = 3 ∧
      ((nestedCalls.turns (limited sampleLimits)).map fun turn => occasions turn.reported) =
        [[], [("slow", .visit 0 "work" (atHour 0))], [], [("restless", .loopBacks 1)],
          [("slow", .visit 2 "work" (atHour 2))], []] ∧
      ∀ before turn later, nestedCalls.turns (limited sampleLimits) = before ++ turn :: later →
        ∀ breach ∈ turn.breaches, breach.item = "i" →
          ∃ other ∈ (before ++ [turn]).flatMap Turn.reported, other.item = "i" ∧
            other.threshold = breach.threshold ∧ other.occasion = breach.occasion := by
  have hactivates : (Run.activate "t").succeeds
      (System.through {} [.putDocument (sampleDocument [] sampleLimits)]) fun w _ =>
        (w.team, w.version) = ("t", 1) := by decide +kernel
  obtain ⟨w, u, accepted, hnames⟩ := Run.succeeds_iff.1 hactivates
  obtain ⟨hteam, hversion⟩ := Prod.mk.inj (of_decide_eq_true hnames)
  have hstart : limited sampleLimits = { u with metrics := {}, alerts := [] } :=
    congrArg (fun s : System => { s with metrics := {}, alerts := [] }) (after_activate accepted)
  have hbound : (limited sampleLimits).registry.version? w.team w.version = some w := by
    rw [hstart]
    obtain ⟨-, notices, rfl⟩ := Run.activate_eq_ok accepted
    simp [Registry.version?, Registry.publish]
  have hevents : nestedCalls.eventsOf (limited sampleLimits) "i" =
      [flowing "i" none ("A", "work") 0, flowing "i" (some ("A", "work")) ("Z", "done") 2,
        flowing "i" (some ("Z", "done")) ("A", "work") 2] := by decide +kernel
  have hreports : ((nestedCalls.turns (limited sampleLimits)).map fun turn =>
      occasions turn.reported) = [[], [("slow", .visit 0 "work" (atHour 0))], [],
        [("restless", .loopBacks 1)], [("slow", .visit 2 "work" (atHour 2))], []] := by
    decide +kernel
  have hlength : ((nestedCalls.turns (limited sampleLimits)).flatMap Turn.alerts).length = 3 := by
    decide +kernel
  have hmeasurable : ∀ turn ∈ nestedCalls.turns (limited sampleLimits), turn.mixed = false := by
    decide +kernel
  obtain ⟨t, ht, halerts, -, hreported⟩ := alerts_once (limited sampleLimits) "i" nestedCalls
    accepted hbound rfl (by rw [hevents]; exact ⟨rfl, by decide⟩)
    (by rw [hevents, hteam, hversion]; decide)
  exact ⟨t, ht, halerts.length_eq.trans hlength, hreports, hreported hmeasurable⟩

/-- An item is created, found late, created again, and late again. -/
def recreatedCalls : Calls :=
  .call (.measure (flowing "i" none ("A", "work") 0)) (fun _ => .done) <|
  .call (.check (some (atHour 2)) [] 0) (fun _ => .done) <|
  .call (.measure (flowing "i" none ("A", "work") 10)) (fun _ => .done) <|
  .call (.check (some (atHour 12)) [] 0) (fun _ => .done) .done

/-- The item makes another visit to the stage then, but under a number that was put down for the
first one, so the breach has no alert. -/
theorem recreation_unreported :
    ((recreatedCalls.turns (limited sampleLimits)).map fun turn =>
      (occasions turn.breaches, occasions turn.reported)) =
        [([], []),
          ([("slow", .visit 0 "work" (atHour 0))], [("slow", .visit 0 "work" (atHour 0))]),
          ([], []), ([("slow", .visit 0 "work" (atHour 10))], [])] := by
  decide +kernel

/-- Of two items, both late, the second one was created at a time of an unknown zone. -/
def mixedCalls : Calls :=
  let unzoned := { flowing "j" none ("A", "work") 0 with time := { atHour 0 with zoned := false } }
  .call (.measure (flowing "i" none ("A", "work") 0)) (fun _ => .done) <|
  .call (.measure unzoned) (fun _ => .done) <|
  .call (.check (some (atHour 2)) [] 0) (fun _ => .done) <|
  .call (.check (some (atHour 3)) ["i"] 0) (fun _ => .done) .done

/-- The check of both fails at the second item when it has put down the breach of the first one,
which has no alert then and later. -/
theorem mixed_times_unreported :
    ((mixedCalls.turns (limited sampleLimits)).map fun turn =>
      (turn.mixed, occasions turn.breaches, occasions turn.reported)) =
        [(false, [], []), (false, [], []),
          (true, [("slow", .visit 0 "work" (atHour 0))], []),
          (false, [("slow", .visit 0 "work" (atHour 0))], [])] := by
  decide +kernel

end Stageflow
