import Stageflow.Proofs.Core.Session
import Stageflow.Proofs.ItemSteps
import Stageflow.Proofs.Tables
import Stageflow.Proofs.Visits

/-!
# What is measured agrees with the items

Automation is told of a move before metrics are. If it answers by moving the item on, that move is
measured first, and the track of the item leaves its history. If no rule answers a change of status
at once with a move, the moves of an item are measured in the order in which they are made, and its
track follows its history.
-/

namespace Stageflow

open Run Stageflow.Core

/-- Whether no rule answers a change of status at once with a move. -/
def RuleBook.isQuiet (rules : RuleBook) : Bool :=
  (rules.immediate Rule.transitionTrigger).all fun rule =>
    rule.actions.all fun action => !action.type.isMove

/-- Whether events are given to automation, then to metrics and to others behind them, and every
collaborator answers. -/
structure System.Serves (s : System) : Prop where
  running : s.dispatcher.closed = false
  wired : ∃ rest, s.dispatcher.subscribers = .automation :: .metrics :: rest ∧ .metrics ∉ rest
  responsive : ∀ c, s.runner.conducts c ≠ .hanging

/-! ## Followed items -/

/-- Whether items stand under their ids, are somewhere, and have tracks that follow their histories.
-/
structure Items.Followed (items : Items) (tracks : Table String Track) : Prop where
  keyed : ∀ id item, items.get? id = some item → item.id = id
  present : ∀ id item, items.get? id = some item → item.currentStay?.isSome
  followed : ∀ id item, items.get? id = some item →
    ∃ track, tracks.get? id = some track ∧ track.Follows item.history

namespace Items.Followed

variable {items : Items} {tracks : Table String Track} {old new : Item}

/-- An item that is put along with its track is followed. -/
theorem put (h : items.Followed tracks) (item : Item) (present : item.currentStay?.isSome)
    {track : Track} (follows : track.Follows item.history) :
    Items.Followed (items.put item.id item) (tracks.put item.id track) where
  keyed := Table.forall_get?_put rfl fun id item _ => h.keyed id item
  present := Table.forall_get?_put present fun id item _ => h.present id item
  followed := by
    refine Table.forall_get?_put ⟨track, Table.get?_put_self .., follows⟩ ?_
    intro id other hne hother
    obtain ⟨track', htrack', hfollows'⟩ := h.followed id other hother
    exact ⟨track', (Table.get?_put_of_ne hne ..).trans htrack', hfollows'⟩

/-- An item that is only touched is followed by the track that it has. -/
theorem touch (h : items.Followed tracks) (stored : items.get? old.id = some old)
    (touches : new.Touches old) : Items.Followed (items.put new.id new) tracks where
  keyed := Table.forall_get?_put rfl fun id item _ => h.keyed id item
  present := by
    refine Table.forall_get?_put ?_ fun id item _ => h.present id item
    have hpresent := h.present old.id old stored
    rwa [Item.currentStay?, touches.history]
  followed := by
    refine Table.forall_get?_put ?_ fun id item _ => h.followed id item
    rw [touches.id, touches.history]
    exact h.followed old.id old stored

end Items.Followed

/-! ## Cores -/

namespace Core

/-- The core after a move is measured. -/
def measure (c : Core) (m : Moved) (terminal : Bool) : Core :=
  { c with tracks := (({ tracks := c.tracks } : Metrics).record m terminal).1.tracks }

/-- What is measured agrees with the items, and will: metrics are told of a move behind automation,
and once, rule books are quiet, and nothing hangs. -/
structure Measured (limit : Int) (c : Core) : Prop where
  limited : c.limit = limit
  followed : c.items.Followed c.tracks
  quiet : ∀ key book, c.rules.get? key = some book → book.isQuiet
  wired : ∃ rest, c.subscribers = .automation :: .metrics :: rest ∧ .metrics ∉ rest
  running : c.closed = false
  responsive : ∀ x, c.conducts x ≠ .hanging

/-- What the versions of workflows say of the items that are bound to them. -/
structure Bound (c : Core) : Prop where
  coherent : c.registry.Coherent
  quiet : ∀ team version w, c.registry.version? team version = some w → RuleBook.isQuiet w.rules
  tracked : ∀ id item, c.items.get? id = some item → ∃ w,
    c.registry.version? item.team item.workflowVersion = some w ∧ w.Tracks item

/-- A core in which every move is measured. -/
def Settled (limit : Int) (c : Core) : Prop := c.Measured limit ∧ c.Bound

/-- A core that awaits the measurement of one move: it is settled once that is done. -/
def Awaiting (limit : Int) (m : Moved) (c : Core) : Prop :=
  ∀ terminal, (c.measure m terminal).Settled limit

variable {limit : Int} {c : Core} {old new : Item} {m : Moved}

/-- A known item that moves takes its track along. -/
theorem tracks_measure {track : Track} (htrack : c.tracks.get? m.item = some track)
    (hsource : m.source.isSome) (terminal : Bool) :
    (c.measure m terminal).tracks = c.tracks.put m.item (track.move m terminal) := by
  obtain ⟨source, hsource⟩ := Option.isSome_iff_exists.1 hsource
  simp [Core.measure, Metrics.record, Metrics.count, hsource, htrack]

/-- A new item begins a track. -/
theorem tracks_measure_of_none (hsource : m.source = none) (terminal : Bool) :
    (c.measure m terminal).tracks = c.tracks.put m.item (.start m) := by
  simp [Core.measure, Metrics.record, hsource]

/-- The tracks are the only thing that the measurement of a move reads. -/
theorem measure_core (s : System) (m : Moved) (terminal : Bool) :
    s.core.measure m terminal =
      { s.core with tracks := (s.metrics.record m terminal).1.tracks } := by
  unfold Core.measure Metrics.record
  cases m.source <;> rfl

theorem Bound.touched (h : c.Bound) (stored : c.items.get? old.id = some old)
    (touches : new.Touches old) : (c.save new).Bound where
  coherent := h.coherent
  quiet := h.quiet
  tracked := by
    refine Table.forall_get?_put ?_ fun id item _ => h.tracked id item
    obtain ⟨w, hw, earlier, last, stage, hhistory, hstage, hlast⟩ := h.tracked old.id old stored
    refine ⟨w, ?_, earlier, last, stage, touches.history.trans hhistory, ?_, hlast⟩
    · rw [touches.team, touches.workflowVersion]
      exact hw
    · rw [touches.status]
      exact hstage

variable {w : Workflow} {item : Item} {target : Json} {move : Move}

/-- A committed move awaits its measurement. -/
theorem Settled.committed (h : c.Settled limit) (stored : c.items.get? item.id = some item)
    (bound : c.registry.version? item.team item.workflowVersion = some w)
    (decided : w.decide item target = .ok move) (actor : Actor) :
    (c.commit item move).Awaiting limit (move.event item actor c.clock) := by
  intro terminal
  obtain ⟨hmeasured, hbound⟩ := h
  obtain ⟨w', hw', htracks⟩ := hbound.tracked item.id item stored
  obtain rfl := Option.some.inj (bound.symm.trans hw')
  obtain ⟨track, htrack, hfollows⟩ := hmeasured.followed.followed item.id item stored
  have hmoved := lasting_tracks.moved c.clock (item.version + 1) decided htracks
  obtain ⟨earlier, last, stage, hhistory, hstage, hlast⟩ := htracks
  obtain ⟨-, hsource, -, -⟩ := Workflow.decide_ok decided
  obtain rfl := Except.ok.inj (hsource.symm.trans hstage)
  have hopen : last.exitedAt = none := by
    have hpresent := hmeasured.followed.present item.id item stored
    simpa [Item.currentStay?, hhistory, Stay.isOpen] using hpresent
  have hmeasure := tracks_measure (c := c.commit item move) (m := move.event item actor c.clock)
    htrack rfl terminal
  refine ⟨⟨hmeasured.limited, ?_, hmeasured.quiet, hmeasured.wired, hmeasured.running,
    hmeasured.responsive⟩, ⟨hbound.coherent, hbound.quiet, ?_⟩⟩
  · rw [hmeasure]
    refine hmeasured.followed.put _ ?_ (hfollows.move hhistory hopen (congrArg some hlast.symm) _)
    simp [Item.currentStay?, Item.history_moveTo hhistory hopen, Stay.isOpen]
  · exact Table.forall_get?_put ⟨w, bound, hmoved⟩ fun id item _ => hbound.tracked id item

/-- The creation of an item awaits its measurement. -/
theorem Settled.created {team id : String} {stage : Stage} (h : c.Settled limit)
    (active : c.registry.active.get? team = some w)
    (placed : w.stageOf w.initialStatus = .ok stage)
    (complexity : Option String) (attributes : Fields) (actor : Actor) :
    (c.create w id complexity attributes stage).Awaiting limit
      (w.birth team id stage actor c.clock) := by
  intro terminal
  obtain ⟨hmeasured, hbound⟩ := h
  obtain ⟨rfl, hw⟩ := hbound.coherent.active _ _ active
  rw [← hbound.coherent.version?_eq] at hw
  have hmeasure := tracks_measure_of_none (c := c.create w id complexity attributes stage)
    (m := w.birth w.team id stage actor c.clock) rfl terminal
  refine ⟨⟨hmeasured.limited, ?_, hmeasured.quiet, hmeasured.wired, hmeasured.running,
    hmeasured.responsive⟩, ⟨hbound.coherent, hbound.quiet, ?_⟩⟩
  · rw [hmeasure]
    exact hmeasured.followed.put
      { w.newItem id complexity attributes stage.id c.clock with version := 1 } rfl
      (Track.follows_start _ _)
  · refine Table.forall_get?_put ⟨w, hw, ?_⟩ fun id item _ => hbound.tracked id item
    exact lasting_tracks.created id complexity attributes c.clock 1 placed

/-- What is delivered shows neither in what is measured nor in what is to be. -/
theorem Settled.deliver (h : c.Settled limit) (subscriber : Subscriber) (event : Event) :
    (c.deliver subscriber event).Settled limit :=
  ⟨⟨h.1.limited, h.1.followed, h.1.quiet, h.1.wired, h.1.running, h.1.responsive⟩,
    ⟨h.2.coherent, h.2.quiet, h.2.tracked⟩⟩

theorem Awaiting.deliver (h : c.Awaiting limit m) (subscriber : Subscriber) (event : Event) :
    (c.deliver subscriber event).Awaiting limit m :=
  fun terminal => Settled.deliver (h terminal) subscriber event

/-- Being settled lasts while items are only touched. -/
theorem steady_settled (limit : Int) : Steady limit (Settled limit) fun _ => False where
  limited h := h.1.limited
  keyed h hitem := h.1.followed.keyed _ _ hitem
  touched h stored touches := by
    refine ⟨⟨h.1.limited, h.1.followed.touch stored touches, h.1.quiet, h.1.wired, h.1.running,
      h.1.responsive⟩, h.2.touched stored touches⟩
  learned {c team version w} h hw := by
    refine ⟨⟨h.1.limited, h.1.followed, ?_, h.1.wired, h.1.running, h.1.responsive⟩,
      ⟨h.2.coherent, h.2.quiet, h.2.tracked⟩⟩
    exact Table.forall_get?_put (h.2.quiet team version w hw) fun key book _ => h.1.quiet key book
  signalled subscriber signal h := h.deliver subscriber (.signal signal)
  hangs h hhanging := h.1.responsive _ hhanging
  rescued h := h.elim

/-- A pending move stays pending while items are only touched: its measurement can be put off. -/
theorem steady_awaiting (limit : Int) (m : Moved) :
    Steady limit (Awaiting limit m) fun _ => False where
  limited h := (h true).1.limited
  keyed h hitem := (h true).1.followed.keyed _ _ hitem
  touched h stored touches terminal := (steady_settled limit).touched (h terminal) stored touches
  learned h hw terminal := (steady_settled limit).learned (h terminal) hw
  signalled subscriber signal h := h.deliver subscriber (.signal signal)
  hangs h hhanging := (h true).1.responsive _ hhanging
  rescued h := h.elim

theorem moving_settled (limit : Int) :
    Moving limit (Settled limit) (fun _ => False) (Awaiting limit) where
  toSteady := steady_settled limit
  pending h := (h true).1.limited
  committed actor h stored bound decided := h.committed stored bound decided actor
  created complexity attributes actor h active placed _ :=
    h.created active placed complexity attributes actor

end Core

/-! ## Cascades -/

namespace Run

variable {limit : Int} {announce : Event → Run Unit} {m : Moved}

/-- While automation answers a move, that move stays pending: no rule moves an item on. -/
theorem stays_awaiting :
    Stays (On (Awaiting limit m)) (On fun _ => False) (handleEvent announce (.moved m)) := by
  have steady := steady_awaiting limit m
  refine stays_unlessDeep steady fun _ => stays_handleMoved steady fun c book hc hbook rule hrule =>
    stays_runImmediate steady fun action haction hmove => ?_
  have hquiet : book.isQuiet := (hc true).1.quiet _ book hbook
  have hstill := List.all_eq_true.1 (List.all_eq_true.1 hquiet rule hrule) action haction
  simp [hmove] at hstill

/-- A move that is announced is measured once automation has answered it. -/
theorem publishes_awaiting : Publishes limit (Settled limit) (fun _ => False) (Awaiting limit) := by
  intro announce m s hmoves hm
  have steady := steady_settled limit
  have hrunning : s.dispatcher.closed = false := (hm true).1.running
  obtain ⟨rest, hsubscribers, hrest⟩ := (hm true).1.wired
  have hsubscribers : s.dispatcher.subscribers = .automation :: .metrics :: rest := hsubscribers
  refine ends_publishWith_of_handOver ?_
  simp only [handOver, ends_bind, ends_get, hrunning, hsubscribers, Bool.not_false, if_true,
    ends_forM_cons]
  refine (ends_deliverSafely (J := Awaiting limit m) .automation fun u hu => ?_).mono
    fun _ t ht => ?_
  · exact stays_awaiting u ((congrArg (Awaiting limit m) hu).mpr (hm.deliver _ _))
  refine (ends_deliverSafely (J := Settled limit) .metrics fun u hu => ?_).mono fun _ t ht => ?_
  · refine ends_measure steady hmoves fun terminal => ?_
    rw [← measure_core, hu]
    exact ht.deliver _ _ terminal
  have hothers (subscriber : Subscriber) (h : subscriber ≠ .metrics) :
      Stays (On (Settled limit)) (On fun _ => False) (deliver announce (.moved m) subscriber) := by
    cases subscriber with
    | automation => exact stays_handleEvent steady hmoves
    | metrics => exact absurd rfl h
    | recorder => exact stays_modify fun _ => rfl
    | failing name => exact .raise
  refine Stays.forM (fun subscriber hsubscriber t ht => ends_deliverSafely subscriber fun u hu =>
    hothers subscriber (fun heq => hrest (heq ▸ hsubscriber)) u ?_) t ht
  exact (congrArg (Settled limit) hu).mpr (ht.deliver _ _)

end Run

/-! ## Sessions -/

/-- Whether an operation forges no move, and binds no item to another version. -/
def Operation.isGenuine : Operation → Bool
  | .migrate .. | .deliver (.moved _) _ | .publish (.moved _) => false
  | _ => true

theorem Operation.migrated?_of_isGenuine {op : Operation} (genuine : op.isGenuine) :
    op.migrated? = none := by
  cases op with
  | migrate => cases genuine
  | _ => rfl

/-- An operation that forges no move leaves no move unmeasured. -/
theorem Operation.measured_perform {limit : Int} {s : System} {op : Operation}
    (genuine : op.isGenuine) (h : s.core.Settled limit) :
    (op.perform.after s).core.Measured limit := by
  have hmeasured (hstays : Stays (On (Settled limit)) (On fun _ => False) op.perform) :
      (op.perform.after s).core.Measured limit := ((hstays s h).after fun _ => False.elim).1
  have hactivated (hactivation : op = .activateAll ∨ ∃ team, op = .activate team) :
      (op.perform.after s).core.Measured limit := by
    have hstays : Stays (On (Measured limit)) (On fun _ => False) op.perform :=
      stays_activations (fun _ h => ⟨h.limited, h.followed, h.quiet, h.wired, h.running,
        h.responsive⟩) hactivation
    exact (hstays s h.1).after fun _ => False.elim
  have hplain (plain : op.isPlain) : (op.perform.after s).core.Measured limit :=
    hmeasured (stays_perform (moving_settled limit)
      (cascades_of_publishes (moving_settled limit) publishes_awaiting) plain)
  cases op with
  | activate team => exact hactivated (.inr ⟨team, rfl⟩)
  | activateAll => exact hactivated (.inl rfl)
  | advance seconds =>
    exact hmeasured (stays_advance fun h _ => ⟨⟨h.1.limited, h.1.followed, h.1.quiet, h.1.wired,
      h.1.running, h.1.responsive⟩, ⟨h.2.coherent, h.2.quiet, h.2.tracked⟩⟩)
  | migrate => cases genuine
  | deliver event =>
    cases event with
    | moved m => cases genuine
    | signal signal => exact hplain rfl
  | publish event =>
    cases event with
    | moved m => cases genuine
    | signal signal => exact hplain rfl
  | _ => exact hplain rfl

/-- After every session of genuine operations whose workflows are quiet, all moves are measured. -/
theorem measured_through {limit : Int} {s : System} (sound : s.Sound)
    (sustains : (s.view []).Sustains (fun _ => True) Workflow.Tracks) (h : s.core.Measured limit)
    {ops : List Operation} (genuine : ∀ op ∈ ops, op.isGenuine)
    (quiet : ∀ team version w, (s.through ops).registry.version? team version = some w →
      RuleBook.isQuiet w.rules) :
    (s.through ops).core.Measured limit := by
  induction ops generalizing s with
  | nil => exact h
  | cons op ops ih =>
    have hbound : s.core.Bound := by
      refine ⟨sustains.coherent, fun team version w hw => ?_, fun id item hitem => ?_⟩
      · exact quiet team version w (version?_through sound sustains.coherent (op :: ops) hw)
      · exact sustains.good id item trivial hitem
    have hop := Operation.measured_perform (genuine op (by simp)) ⟨h, hbound⟩
    have hadmitted : op.Admitted ⟨False, fun _ => True⟩ := by
      refine ⟨False.elim, fun id hid => ?_⟩
      simp [Operation.migrated?_of_isGenuine (genuine op (by simp))] at hid
    have hreaches := Operation.reaches_perform hadmitted sound
    have hsustains := hreaches.steps.invariant (fun _ _ hv hs => hv.step lasting_tracks hs) sustains
    exact ih hreaches.sound hsustains hop (fun op hop => genuine op (by simp [hop])) quiet

/-- In every session of genuine operations, if no rule of the published workflows answers a change
of status at once with a move, every item has a track with the visits of its history: their stages
are those of its stays without repetitions in a row, with the times when these began and ended, and
the open one is the stage that the item is in. The track counts the moves of the item. -/
theorem tracks_follow {s : System} (new : s.New) (unread : s.automation.rules = [])
    (coherent : s.registry.Coherent) (serves : s.Serves) {ops : List Operation}
    (genuine : ∀ op ∈ ops, op.isGenuine)
    (quiet : ∀ team version w, (s.through ops).registry.version? team version = some w →
      RuleBook.isQuiet w.rules)
    {id : String} {item : Item} (stored : (s.through ops).items.get? id = some item) :
    ∃ track, (s.through ops).metrics.tracks.get? id = some track ∧
      track.visits = visits item.history ∧
      track.visits.map (·.stage) = (item.history.map (·.stage)).destutter (· ≠ ·) ∧
      (∃ w stage, (s.through ops).registry.version? item.team item.workflowVersion = some w ∧
        w.stageOf item.status = .ok stage ∧
        track.currentVisit?.map (·.stage) = some stage.id) ∧
      track.transitions = item.history.length - 1 := by
  have hnone (id : String) : s.items.get? id = none := by simp [new.items]
  have hstart : s.core.Measured s.settings.maxCascadeDepth := by
    refine ⟨rfl, ?_, fun key book hbook => ?_, serves.wired, serves.running, serves.responsive⟩
    · constructor <;> intro id item hitem <;> simp [System.core, hnone] at hitem
    · simp [System.core, unread] at hbook
  have hsustains : (s.view []).Sustains (fun _ => True) Workflow.Tracks :=
    ⟨coherent, new.sound.items, fun id item _ hitem => by simp [System.view, hnone] at hitem⟩
  have hend := measured_through new.sound hsustains hstart genuine quiet
  obtain ⟨track, htrack, hfollows⟩ := hend.followed.followed id item stored
  have hkept : ∀ op ∈ ops, op.migrated? ≠ some id := by
    intro op hop
    simp [Operation.migrated?_of_isGenuine (genuine op hop)]
  obtain ⟨w, hw, earlier, last, stage, hhistory, hstage, hlast⟩ :=
    lasting_tracks.through new coherent hkept stored
  have hopen : last.exitedAt = none := by
    have hpresent := hend.followed.present id item stored
    simpa [Item.currentStay?, hhistory, Stay.isOpen] using hpresent
  have hcurrent := hfollows.currentVisit? hhistory hopen
  have hcount := hfollows.transitions
  exact ⟨track, htrack, hfollows.visits, hfollows.visits ▸ map_stage_visits item.history,
    ⟨w, stage, hw, hstage, hcurrent.trans (congrArg some hlast)⟩, by omega⟩

/-- The versions of workflows of a registry, saved ones included, are quiet if each entry is. -/
theorem Registry.isQuiet_of_all {registry : Registry}
    (h : (registry.versions ++ registry.saved).all fun p => RuleBook.isQuiet p.2.rules)
    {team : String} {version : Int} {w : Workflow}
    (hw : registry.version? team version = some w) : RuleBook.isQuiet w.rules := by
  have hmem : ((team, version), w) ∈ registry.versions ++ registry.saved := by
    unfold Registry.version? at hw
    cases hversion : registry.versions.get? (team, version) with
    | some found =>
      simp only [hversion, Option.orElse_some, Option.some.injEq] at hw
      exact List.mem_append_left _ (Table.mem_of_get? (hw ▸ hversion))
    | none =>
      simp only [hversion, Option.orElse_none] at hw
      exact List.mem_append_right _ (Table.mem_of_get? hw)
  exact List.all_eq_true.1 h _ hmem

/-- A team plans, builds and ships its items, and a rule moves an item on that reached a status. -/
def sprint (trigger : String) (reached onward : Json) : List Operation :=
  [.putDocument <| .obj [
      ("team", .obj [("id", .str "t")]),
      ("stages", .arr [.obj [("id", .str "plan")], .obj [("id", .str "build")],
        .obj [("id", .str "ship"), ("terminal", .bool true)]]),
      ("statuses", .arr [.obj [("id", .str "planned"), ("stage_id", .str "plan")],
        .obj [("id", .str "building"), ("stage_id", .str "build")],
        .obj [("id", .str "shipped"), ("stage_id", .str "ship")]]),
      ("transitions", .arr [.obj [("from", .str "planned"), ("to", .str "building")],
        .obj [("from", .str "building"), ("to", .str "shipped")]]),
      ("automation", .arr [.obj [("id", .str "on"), ("trigger", .str trigger), ("to", reached),
        ("actions", .arr [.obj [("type", .str "auto_transition"), ("to", onward)]])]])],
    .activate "t", .create { team := "t", id := some "i" }]

/-- The rule moves the item on when a signal asks for it. -/
def released : List Operation :=
  sprint "release" .null (.str "shipped") ++
    [.advance (.int 60), .move "i" (.str "building") {}, .advance (.int 60),
      .ingest { type := "release", item := some "i" }]

theorem tracks_follow_released :
    ∃ item track, (System.through {} released).items.get? "i" = some item ∧
      (System.through {} released).metrics.tracks.get? "i" = some track ∧
      item.history.map (·.stage) = ["plan", "build", "ship"] ∧
      track.visits = visits item.history ∧ track.transitions = 2 := by
  have hrun : ((System.through {} released).items.get? "i").map
      (fun item => item.history.map (·.stage)) = some ["plan", "build", "ship"] := by
    decide +kernel
  have hquiet : ((System.through {} released).registry.versions ++
      (System.through {} released).registry.saved).all fun p => RuleBook.isQuiet p.2.rules := by
    decide +kernel
  have hserves : ({} : System).Serves :=
    ⟨rfl, ⟨[.recorder], rfl, by decide⟩, fun _ hhanging => by cases hhanging⟩
  obtain ⟨item, hitem, hstages⟩ := Option.map_eq_some_iff.1 hrun
  obtain ⟨track, htrack, hvisits, -, -, hcount⟩ :=
    tracks_follow (System.new_default {}) rfl Registry.coherent_empty hserves
      (by decide +kernel) (fun _ _ _ hw => Registry.isQuiet_of_all hquiet hw) hitem
  have hlength := congrArg List.length hstages
  simp only [List.length_map, List.length_cons, List.length_nil] at hlength
  exact ⟨item, track, hitem, htrack, hstages, hvisits, by omega⟩

/-- The rule moves the item on as soon as it is built. -/
def rushed : List Operation :=
  sprint "transition" (.str "building") (.str "shipped") ++ [.move "i" (.str "building") {}]

/-- The rule moves the item on as soon as it is created. -/
def hastened : List Operation := sprint "transition" (.str "planned") (.str "building")

/-- A rule that answers a change of status with a move is measured before that change: visits are
recorded out of order, and the move out of a new item's first status is forgotten. -/
theorem tracks_stray :
    (∀ ops ∈ [rushed, hastened], ∀ op ∈ ops, op.isGenuine) ∧
    ((System.through {} rushed).items.get? "i").map
        (fun item => (item.status, (visits item.history).map (·.stage))) =
      some ("shipped", ["plan", "build", "ship"]) ∧
    ((System.through {} rushed).metrics.tracks.get? "i").map
        (fun track => (track.visits.map (·.stage), track.currentVisit?.map (·.stage))) =
      some (["plan", "ship", "build"], some "build") ∧
    ((System.through {} hastened).items.get? "i").map (fun item => item.history.length - 1) =
      some 1 ∧
    ((System.through {} hastened).metrics.tracks.get? "i").map (·.transitions) = some 0 := by
  decide +kernel

end Stageflow
