import Mathlib.Data.List.Basic
import Stageflow.Proofs.Core.Cascade
import Stageflow.Proofs.Twins.Actions

/-!
# Cascades in step

Automation reacts to an event by the rules of the version that the event, or its item, is bound to,
and the metrics take in a move by the limits of the version that the item is measured by. So an
event is taken in in step where what it causes one level deeper is.
-/

namespace Stageflow

/-- Whether what an event of a depth causes goes in step, unless the event is too deep. -/
def Pact.Carries (pact : Pact) (s₀ t₀ : System) (depth : Int) (a b : Event → Run Unit) : Prop :=
  depth ≤ s₀.settings.maxCascadeDepth → pact.reacts depth ∧ pact.Echoes s₀ t₀ (depth + 1) a b

/-- Whether an event is of an item that is bound as it may be, if it is a move. -/
def Pact.Hears (pact : Pact) : Event → Prop
  | .moved m => pact.Tells m
  | .signal _ => True

/-- Whether automation reacts at all depths from one on, up to a limit. -/
def Pact.Descends (pact : Pact) (limit depth : Int) : Prop :=
  ∀ deeper, depth ≤ deeper → deeper ≤ limit → pact.reacts deeper

/-- Announcing what automation reacts to from its depth on goes in step. -/
def Pact.Announces (pact : Pact) (s₀ t₀ : System) (a b : Event → Run Unit) : Prop :=
  ∀ inside event, pact.Hears event → pact.Descends s₀.settings.maxCascadeDepth event.depth →
    Run.Twins (pact.InStep s₀ t₀ inside) (inside = true) (a event) (b event)

namespace Pact

variable {pact : Pact} {s₀ t₀ : System} {a b : Event → Run Unit} {limit depth : Int}

theorem Descends.from (h : pact.Descends limit depth) {deeper : Int} (hle : depth ≤ deeper) :
    pact.Descends limit deeper :=
  fun deepest hdeepest => h deepest (Int.le_trans hle hdeepest)

theorem Announces.echoes (h : pact.Announces s₀ t₀ a b)
    (descends : pact.Descends s₀.settings.maxCascadeDepth depth) : pact.Echoes s₀ t₀ depth a b := by
  rintro inside m rfl tells
  exact h inside (.moved m) tells descends

theorem Announces.carries (h : pact.Announces s₀ t₀ a b)
    (descends : pact.Descends s₀.settings.maxCascadeDepth depth) :
    pact.Carries s₀ t₀ depth a b :=
  fun hle => ⟨descends depth (Int.le_refl _) hle, h.echoes (descends.from (by omega))⟩

end Pact

namespace Run

variable {H : Prop} {pact : Pact} {s₀ t₀ : System} {inside : Bool} {a b : Event → Run Unit}

/-! ## Rules -/

theorem twins_setWatches {watches : Watches} (h : ∀ p ∈ watches, pact.reacts p.2.trigger.depth) :
    Twins (pact.InStep s₀ t₀ inside) H (setWatches watches) (setWatches watches) :=
  twins_modify fun u _ hu =>
    ⟨{ u with automation := { u.automation with watches } }, rfl, rfl, { hu with watches := h }⟩

theorem twins_ruleBook (agrees : pact.Agrees s₀ t₀) {id team : String} {version : Int}
    (bound : pact.bound id team version) :
    Twins (pact.InStep s₀ t₀ inside) H (ruleBook team version) (ruleBook team version) := by
  refine .read ?_
  rintro _ _ ⟨u, notices, rfl, rfl, -⟩
  simp only [System.behind]
  cases u.automation.rules.get? (team, version) with
  | some book => exact .pure trivial
  | none =>
    refine .read ?_
    rintro _ _ ⟨v, notices, rfl, rfl, -⟩
    simp only [System.behind, Registry.version, agrees _ _ _ bound]
    refine .bind (.ofExcept fun _ _ => trivial) fun w _ => .bind (twins_modify fun u _ hu => ?_)
      fun _ _ => .pure trivial
    exact ⟨{ u with automation :=
      { u.automation with rules := u.automation.rules.put (team, version) w.rules } }, rfl, rfl,
      { hu with }⟩

/-- The watch of a rule remembers an event that automation reacts to. -/
theorem twins_armRule {trigger : Trigger} (reacts : pact.reacts trigger.event.depth)
    {replace : Bool} {rule : Rule} :
    Twins (pact.InStep s₀ t₀ inside) H (armRule trigger replace rule)
      (armRule trigger replace rule) := by
  unfold armRule
  cases rule.duration with
  | none => exact .pure trivial
  | some seconds =>
    refine .read ?_
    rintro _ _ ⟨u, notices, rfl, rfl, hu⟩
    simp only [System.behind]
    refine .bind .ofReading fun dueAt _ => ?_
    split
    · exact .pure trivial
    · rename_i watches harm
      refine .bind (twins_setWatches fun p hp => ?_) fun _ _ => twins_note reacts
      obtain rfl := Watches.eq_put_of_arm harm
      obtain rfl | hp := Table.mem_put hp
      · exact reacts
      · exact hu.watches p hp

/-- Actions of a rule run in response to an event that automation reacts to. -/
theorem twins_runRule (agrees : pact.Agrees s₀ t₀) (event : Event)
    (reacts : pact.reacts event.depth) (echoes : pact.Echoes s₀ t₀ (event.depth + 1) a b)
    (rule : Rule) (actions : List Action) (item team : String) :
    Twins (pact.InStep s₀ t₀ inside) (inside = true) (runRule a rule actions item team event)
      (runRule b rule actions item team event) :=
  .bind (twins_note trivial) fun _ _ =>
    twins_runActions agrees (pact.deepens reacts) echoes actions

theorem twins_runRules (agrees : pact.Agrees s₀ t₀) {rules : RuleBook} (trigger : Trigger)
    (reacts : pact.reacts trigger.event.depth)
    (echoes : pact.Echoes s₀ t₀ (trigger.event.depth + 1) a b) {replace : Bool} :
    Twins (pact.InStep s₀ t₀ inside) (inside = true) (runRules a rules trigger replace)
      (runRules b rules trigger replace) :=
  .bind (.forM fun _ _ => twins_armRule reacts) fun _ _ => .forM fun _ _ =>
    .bind (twins_runRule agrees trigger.event reacts echoes _ _ _ _) fun _ _ => .pure trivial

/-! ## Taking in events -/

theorem twins_handleMoved (agrees : pact.Agrees s₀ t₀) {m : Moved} (tells : pact.Tells m)
    (reacts : pact.reacts m.depth) (echoes : pact.Echoes s₀ t₀ (m.depth + 1) a b) :
    Twins (pact.InStep s₀ t₀ inside) (inside = true) (handleMoved a m) (handleMoved b m) := by
  refine .read ?_
  rintro _ _ ⟨u, notices, rfl, rfl, hu⟩
  refine .bind (twins_setWatches fun p hp => hu.watches p (List.mem_filter.1 hp).1) fun _ _ =>
    .bind (.forM fun _ _ => twins_note trivial) fun _ _ =>
      .bind (twins_ruleBook agrees tells) fun book _ => ?_
  exact twins_runRules agrees ⟨.moved m, m.item, m.team, m.target, m.workflowVersion⟩ reacts
    echoes

theorem twins_breakWatches (agrees : pact.Agrees s₀ t₀) {signal : Signal}
    (reacts : pact.reacts signal.depth) (echoes : pact.Echoes s₀ t₀ (signal.depth + 1) a b)
    {selected : Watch → Bool} :
    Twins (pact.InStep s₀ t₀ inside) (inside = true) (breakWatches a signal selected)
      (breakWatches b signal selected) := by
  refine .read ?_
  rintro _ _ ⟨u, notices, rfl, rfl, hu⟩
  refine .bind (twins_setWatches fun p hp => hu.watches p (List.mem_filter.1 hp).1) fun _ _ =>
    .bind (.forM fun _ _ => twins_note trivial) fun _ _ =>
      .forM fun broken _ => .bind (twins_note reacts) fun _ _ => ?_
  exact .bind (twins_runRule agrees (.signal signal) reacts echoes _ _ _ _) fun _ _ => .pure trivial

theorem twins_handleSignal (agrees : pact.Agrees s₀ t₀) {signal : Signal}
    (reacts : pact.reacts signal.depth) (echoes : pact.Echoes s₀ t₀ (signal.depth + 1) a b) :
    Twins (pact.InStep s₀ t₀ inside) (inside = true) (handleSignal a signal)
      (handleSignal b signal) := by
  unfold handleSignal
  split
  · exact twins_breakWatches agrees reacts echoes
  · refine .bind (.attempt (twin_loadItem _)) fun result hresult => ?_
    cases result with
    | error fault => exact twins_note trivial
    | ok item =>
      refine .bind (twins_breakWatches agrees reacts echoes) fun _ _ =>
        .bind (twins_ruleBook agrees (hresult item rfl).2) fun book _ => ?_
      exact twins_runRules agrees
        ⟨.signal signal, item.id, item.team, item.status, item.workflowVersion⟩ reacts echoes

theorem twins_handleEvent (agrees : pact.Agrees s₀ t₀) {event : Event} (hears : pact.Hears event)
    (carries : pact.Carries s₀ t₀ event.depth a b) :
    Twins (pact.InStep s₀ t₀ inside) (inside = true) (handleEvent a event)
      (handleEvent b event) := by
  refine .read ?_
  rintro _ _ ⟨u, notices, rfl, rfl, hu⟩
  simp only [System.behind, hu.limit]
  by_cases hdeep : s₀.settings.maxCascadeDepth < event.depth
  · rw [if_pos hdeep, if_pos hdeep]
    exact twins_note trivial
  · rw [if_neg hdeep, if_neg hdeep]
    obtain ⟨reacts, echoes⟩ := carries (by omega)
    refine .bind (twins_note reacts) fun _ _ => ?_
    cases event with
    | moved m => exact twins_handleMoved agrees hears reacts echoes
    | signal signal => exact twins_handleSignal agrees reacts echoes

theorem twins_ingest (agrees : pact.Agrees s₀ t₀) {signal : Signal}
    (carries : pact.Carries s₀ t₀ signal.depth a b) :
    Twins (pact.InStep s₀ t₀ inside) (inside = true) (ingest a signal) (ingest b signal) := by
  unfold ingest
  split
  · exact twins_note trivial
  · refine .read ?_
    rintro _ _ ⟨u, notices, rfl, rfl, -⟩
    exact twins_handleEvent agrees trivial carries

/-! ## Metrics -/

theorem twins_deliverAlert (agrees : pact.Agrees s₀ t₀) {alert : Signal}
    (carries : pact.Carries s₀ t₀ alert.depth a b) :
    Twins (pact.InStep s₀ t₀ inside) (inside = true) (deliverAlert a alert)
      (deliverAlert b alert) := by
  have hpass (sink : AlertSink) : Twins (pact.InStep s₀ t₀ inside) (inside = true)
      (passAlert a alert sink) (passAlert b alert sink) := by
    cases sink with
    | automation =>
      refine .bind (.attempt (twins_ingest agrees carries)) fun result _ => ?_
      cases result with
      | ok _ => exact .pure trivial
      | error _ => exact twins_note trivial
    | failing => exact twins_note trivial
    | recording | none => exact .pure trivial
  refine .read ?_
  rintro _ _ ⟨u, notices, rfl, rfl, -⟩
  simp only [System.behind]
  refine .ite (fun _ => .bind (twins_modify fun v _ hv => ?_) fun _ _ => hpass u.sink)
    fun _ => hpass u.sink
  exact ⟨{ v with alerts := v.alerts ++ [alert] }, rfl, rfl, { hv with }⟩

/-- Limits are found where versions are. -/
theorem limits_agrees (agrees : pact.Agrees s₀ t₀) {measured : List (String × Track)}
    (bound : ∀ p ∈ measured, pact.bound p.1 p.2.team p.2.workflowVersion) :
    limits s₀.registry measured = limits t₀.registry measured :=
  List.flatMap_congr fun p hp => by rw [agrees _ _ _ (bound p hp)]

theorem mem_measuredItems {metrics : Metrics} {items : List String} {p : String × Track}
    (h : p ∈ measuredItems metrics items) : p ∈ metrics.tracks := by
  unfold measuredItems at h
  split at h
  · exact h
  · obtain ⟨id, -, hid⟩ := List.mem_filterMap.1 h
    obtain ⟨track, htrack, rfl⟩ := Option.map_eq_some_iff.1 hid
    exact Table.mem_of_get? htrack

/-- An alert is as deep as the check that found it. -/
theorem twins_checkThresholds (agrees : pact.Agrees s₀ t₀) {now : Option Instant}
    {items : List String} {depth : Int} (carries : pact.Carries s₀ t₀ depth a b) :
    Twins (pact.InStep s₀ t₀ inside) (inside = true) (checkThresholds a now items depth)
      (checkThresholds b now items depth) := by
  refine .read ?_
  rintro _ _ ⟨u, notices, rfl, rfl, hu⟩
  simp only [System.behind]
  rw [← limits_agrees agrees fun p hp => hu.tracks p (mem_measuredItems hp)]
  have htracks := tracks_alerts u.metrics (now.getD u.clock) depth
    (limits s₀.registry (measuredItems u.metrics items))
  refine .bind (twins_modify fun v _ hv => ?_) fun _ _ => .bind (.ofExcept fun _ => id)
    fun alerts hfound => .bind (.forM fun alert halert => ?_) fun _ _ => .pure trivial
  · exact ⟨{ v with metrics := _ }, rfl, rfl, { hv with tracks := htracks ▸ hu.tracks }⟩
  · obtain ⟨-, rfl, -⟩ := mem_alerts hfound halert
    exact twins_deliverAlert agrees carries

theorem move_names (track : Track) (m : Moved) (terminal : Bool) :
    (track.move m terminal).team = track.team ∧
      (track.move m terminal).workflowVersion = m.workflowVersion := by
  unfold Track.move Track.enterStage
  dsimp only
  split <;> exact ⟨rfl, rfl⟩

/-- What a move is measured to is bound as the move is. -/
theorem bound_record {metrics : Metrics} {m : Moved} {terminal : Bool} (tells : pact.Tells m)
    (bound : ∀ p ∈ metrics.tracks, pact.bound p.1 p.2.team p.2.workflowVersion) :
    ∀ p ∈ (metrics.record m terminal).1.tracks, pact.bound p.1 p.2.team p.2.workflowVersion := by
  intro p hp
  unfold Metrics.record at hp
  generalize m.source = source at hp
  cases source with
  | none =>
    obtain rfl | hp := Table.mem_put hp
    · exact tells
    · exact bound p hp
  | some source =>
    obtain rfl | hp := Table.mem_put hp
    · dsimp only
      rw [(move_names ..).1, (move_names ..).2]
      cases htrack : metrics.tracks.get? m.item with
      | none => exact tells
      -- The track keeps the team that it was started with, and takes the version of the move.
      | some track => exact pact.mixes (bound (m.item, track) (Table.mem_of_get? htrack)) tells
    · exact bound p hp

theorem twins_measure (agrees : pact.Agrees s₀ t₀) {m : Moved} (tells : pact.Tells m)
    (carries : pact.Carries s₀ t₀ m.depth a b) :
    Twins (pact.InStep s₀ t₀ inside) (inside = true) (measure a m) (measure b m) := by
  refine .get_bind ?_
  rintro _ _ ⟨u, notices, rfl, rfl, hu⟩
  have hterminal : isTerminalStage t₀.registry m.team m.workflowVersion m.targetStage =
      isTerminalStage s₀.registry m.team m.workflowVersion m.targetStage := by
    unfold isTerminalStage
    rw [agrees _ _ _ tells]
  simp only [System.behind, hterminal]
  have hmeasured (terminal : Bool) : pact.InStep s₀ t₀ inside
      ({ u with metrics := (u.metrics.record m terminal).1 }.behind s₀ notices)
      ({ u with metrics := (u.metrics.record m terminal).1 }.behind t₀ notices) :=
    ⟨_, notices, rfl, rfl, { hu with tracks := bound_record tells hu.tracks }⟩
  rw [set_bind_apply, set_bind_apply]
  exact Twin.ite (fun _ => .bind (twins_checkThresholds agrees carries) fun _ _ => .pure trivial)
    (fun _ => .pure trivial) _ _ (hmeasured _)

/-! ## Delivery -/

theorem twins_deliver (agrees : pact.Agrees s₀ t₀) {event : Event} (hears : pact.Hears event)
    (carries : pact.Carries s₀ t₀ event.depth a b) (subscriber : Subscriber) :
    Twins (pact.InStep s₀ t₀ inside) (inside = true) (deliver a event subscriber)
      (deliver b event subscriber) := by
  cases subscriber with
  | automation => exact twins_handleEvent agrees hears carries
  | metrics =>
    cases event with
    | moved m => exact twins_measure agrees hears carries
    | signal signal => exact .pure trivial
  | recorder =>
    refine twins_modify fun u _ hu => ?_
    exact ⟨{ u with dispatcher :=
      { u.dispatcher with received := u.dispatcher.received ++ [event] } }, rfl, rfl, { hu with }⟩
  | failing name => exact .raise

theorem twins_publishWith (agrees : pact.Agrees s₀ t₀) {event : Event} (hears : pact.Hears event)
    (carries : pact.Carries s₀ t₀ event.depth a b) :
    Twins (pact.InStep s₀ t₀ inside) (inside = true) (publishWith a event)
      (publishWith b event) := by
  refine .read ?_
  rintro _ _ ⟨u, notices, rfl, rfl, -⟩
  refine .bind (P := fun _ => True) (.read ?_) fun _ _ =>
    .ite (fun _ => .raise) fun _ => .pure trivial
  rintro _ _ ⟨u, notices, rfl, rfl, -⟩
  simp only [System.behind]
  refine .ite (fun _ => .forM fun subscriber _ => ?_) fun _ => .pure trivial
  refine .bind (twins_note trivial) fun _ _ =>
    .bind (.attempt (twins_deliver agrees hears carries subscriber)) fun result _ => ?_
  cases result with
  | ok _ => exact .pure trivial
  | error _ => exact twins_note trivial

/-- Where automation reacts at every depth, what is delivered over any number of levels goes in
step. -/
theorem twins_cascade (agrees : pact.Agrees s₀ t₀) (reacts : ∀ depth, pact.reacts depth) (n : Nat)
    {event : Event} (hears : pact.Hears event) :
    Twins (pact.InStep s₀ t₀ inside) (inside = true) (cascade n event) (cascade n event) := by
  induction n generalizing event inside with
  | zero => exact .pure trivial
  | succ n ih =>
    exact twins_publishWith agrees hears fun _ => ⟨reacts _, fun _ _ _ tells => ih tells⟩

/-- Delivers an event and what it causes, over a number of levels, and what is caused beyond them as
given. -/
def cascadeOver (beyond : Event → Run Unit) : Nat → Event → Run Unit
  | 0, event => beyond event
  | levels + 1, event => publishWith (cascadeOver beyond levels) event

theorem cascade_eq_cascadeOver (n : Nat) : cascade n = cascadeOver (fun _ => pure ()) n := by
  induction n with
  | zero => rfl
  | succ n ih =>
    funext event
    exact congrArg (publishWith · event) ih

/-- Over enough levels it makes no difference how many there are, and what lies beyond them. -/
theorem twins_cascadeOver (agrees : pact.Agrees s₀ t₀) {beyond beyond' : Event → Run Unit}
    {n n' : Nat} {event : Event} (hears : pact.Hears event)
    (descends : pact.Descends s₀.settings.maxCascadeDepth event.depth)
    (hn : levels s₀.settings.maxCascadeDepth event.depth ≤ n)
    (hn' : levels s₀.settings.maxCascadeDepth event.depth ≤ n') :
    Twins (pact.InStep s₀ t₀ inside) (inside = true) (cascadeOver beyond n event)
      (cascadeOver beyond' n' event) := by
  -- What is announced within is one level deeper, so it needs one level less in both runs; it may
  -- be announced while an action is running, whatever was the case outside.
  induction n generalizing n' event inside with
  | zero => exact absurd (levels_pos ..) (Nat.not_lt_of_le hn)
  | succ n ih =>
    cases n' with
    | zero => exact absurd (levels_pos ..) (Nat.not_lt_of_le hn')
    | succ n' =>
      refine twins_publishWith agrees hears fun hle => ⟨descends _ (Int.le_refl _) hle, ?_⟩
      rintro inside m hm tells
      have hdeeper : (Event.moved m).depth = event.depth + 1 := hm
      rw [levels_of_le hle, ← hdeeper] at hn hn'
      exact ih tells (descends.from (by omega)) (Nat.le_of_succ_le_succ hn)
        (Nat.le_of_succ_le_succ hn')

/-- Publishing takes as many levels as an event can cause. -/
theorem publish_behind {base u : System} {notices : List Notice}
    (hu : pact.Holds s₀ inside u notices) (event : Event) :
    publish event (u.behind base notices) =
      cascadeOver (fun _ => pure ()) (levels s₀.settings.maxCascadeDepth event.depth) event
        (u.behind base notices) := by
  rw [← hu.limit, ← cascade_eq_cascadeOver, publish, get_bind_apply]
  rfl

theorem announces_publish (agrees : pact.Agrees s₀ t₀) :
    pact.Announces s₀ t₀ publish publish := by
  rintro inside event hears descends _ _ ⟨u, notices, rfl, rfl, hu⟩
  rw [publish_behind hu, publish_behind hu]
  exact twins_cascadeOver agrees hears descends (Nat.le_refl _) (Nat.le_refl _) _ _
    ⟨u, notices, rfl, rfl, hu⟩

/-- Publishing gives an event to all subscribers and publishes what they cause. -/
theorem announces_publishWith (agrees : pact.Agrees s₀ t₀) :
    pact.Announces s₀ t₀ (publishWith publish) publish := by
  rintro inside event hears descends _ _ ⟨u, notices, rfl, rfl, hu⟩
  rw [publish_behind hu]
  refine twins_publishWith agrees hears (fun hle => ⟨descends _ (Int.le_refl _) hle, ?_⟩) _ _
    ⟨u, notices, rfl, rfl, hu⟩
  rintro inside m hm tells _ _ ⟨v, notices, rfl, rfl, hv⟩
  have hhears : pact.Hears (.moved m) := tells
  have hdeeper : (Event.moved m).depth = event.depth + 1 := hm
  rw [publish_behind hv]
  refine twins_cascadeOver agrees hhears (descends.from (by omega)) (Nat.le_refl _) ?_ _ _
    ⟨v, notices, rfl, rfl, hv⟩
  unfold levels
  omega

/-- Over more levels than automation ever reacts at, all is published. -/
theorem announces_cascadeOver (agrees : pact.Agrees s₀ t₀) {beyond : Event → Run Unit} {n : Nat}
    (hn : ∀ depth, pact.Descends s₀.settings.maxCascadeDepth depth →
      levels s₀.settings.maxCascadeDepth depth ≤ n) :
    pact.Announces s₀ t₀ (cascadeOver beyond n) publish := by
  rintro inside event hears descends _ _ ⟨u, notices, rfl, rfl, hu⟩
  rw [publish_behind hu]
  exact twins_cascadeOver agrees hears descends (hn _ descends) (Nat.le_refl _) _ _
    ⟨u, notices, rfl, rfl, hu⟩

end Run

end Stageflow
