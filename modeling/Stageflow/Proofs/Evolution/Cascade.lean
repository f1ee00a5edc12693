import Stageflow.Proofs.Evolution.Actions
import Stageflow.Proofs.Waits

/-!
# How cascades evolve a system

A handled event is one step, and what it causes is announced one level deeper. `Owes` is what holds
while watches are out of the table: whoever took them out has still to deal with them. An
announcement over enough levels lets a system evolve, by induction on the levels.
-/

namespace Stageflow

variable {terms : Terms} {s₀ s t : System}

/-- A system that evolves while some watches are out of the table: those that were out at first, and
those that still are. -/
structure Owes (terms : Terms) (s : System) (owing : List Taken) (t : System) (owed : List Taken) :
    Prop where
  sound : t.Sound
  clock : t.clock = s.clock
  steps : ∀ taken, Steps terms (s.view (owing ++ taken)) (t.view (owed ++ taken))

namespace Owes

variable {owing owed : List Taken}

theorem refl (h : s.Sound) : Owes terms s owing s owing := ⟨h, rfl, fun _ => .refl⟩

theorem trans (h : Owes terms s₀ owing s owed) (ht : Evolves terms s t) :
    Owes terms s₀ owing t owed :=
  ⟨ht.sound, ht.clock.trans h.clock, fun taken => (h.steps taken).trans (ht.steps _)⟩

theorem evolves (h : Owes terms s₀ [] s []) : Evolves terms s₀ s := ⟨h.sound, h.clock, h.steps⟩

theorem limit (h : Owes terms s₀ owing s owed) :
    s.settings.maxCascadeDepth = s₀.settings.maxCascadeDepth := (h.steps []).limit

/-- A watch is let go of. -/
theorem abandon {watch : Taken} (h : Owes terms s₀ owing s (watch :: owed)) :
    Owes terms s₀ owing s owed :=
  ⟨h.sound, h.clock, fun taken => (h.steps taken).tail (.abandoned rfl)⟩

theorem settle (h : Owes terms s₀ owing s owed) : Owes terms s₀ owing s [] := by
  induction owed with
  | nil => exact h
  | cons watch owed ih => exact ih h.abandon

end Owes

/-- Announcing pending moves of a depth lets every system with a limit evolve. -/
def AnnouncesAt (terms : Terms) (limit depth : Int) (announce : Event → Run Unit) : Prop :=
  ∀ s₀ : System, s₀.settings.maxCascadeDepth = limit → Announces terms s₀ depth announce

namespace Run

variable {α β : Type} {announce : Event → Run Unit} {limit : Int}

/-- A computation run from a later system. -/
theorem Leads.reroot {action : Run α} (h : Evolves terms s₀ s)
    (hs : Leads (Evolves terms s) action t fun _ t => Evolves terms s t) :
    Leads (Evolves terms s₀) action t fun _ t => Evolves terms s₀ t :=
  (hs.weaken fun _ ht => h.trans ht).mono fun _ _ ht => h.trans ht

theorem keeps_runRule (rule : Rule) (actions : List Action) (item team : String) (event : Event)
    (ha : Announces terms s₀ (event.depth + 1) announce) :
    Keeps (Evolves terms s₀) (runRule announce rule actions item team event) :=
  .bind (keeps_note rfl) fun _ => keeps_runActions ha

theorem keeps_fire {watch : Watch} (rule : Rule)
    (ha : Announces terms s₀ (watch.trigger.depth + 1) announce) :
    Keeps (Evolves terms s₀) (fire announce watch rule) :=
  (keeps_runRule rule _ _ _ _ ha).tryFinally (keeps_note rfl)

/-! ## Arming -/

/-- What an arming trigger needs: the rules of its version are known, and its item is stored. -/
structure Trigger.Ready (terms : Terms) (trigger : Trigger) (s : System) : Prop where
  known : ∃ book, s.automation.rules.get? (trigger.team, trigger.workflowVersion) = some book
  genuine : terms.timely →
    trigger.event.time?.getD s.clock = s.clock ∧ s.items.has trigger.item

theorem keeps_armRule {trigger : Trigger} {replace : Bool} {rule : Rule} :
    Keeps (fun s => Evolves terms s₀ s ∧ trigger.Ready terms s)
      (armRule trigger replace rule) := by
  unfold armRule
  split
  · rename_i seconds _
    intro s hs
    simp only [arm, leads_bind, leads_get, leads_ofReading]
    split
    · split
      · exact hs
      · rename_i watches harm
        obtain ⟨book, hbook⟩ := hs.2.known
        refine ⟨hs.1.step ⟨hs.1.sound.items, hs.1.sound.source⟩ rfl fun taken => ?_,
          ⟨book, hbook⟩, hs.2.genuine⟩
        obtain rfl := Watches.eq_put_of_arm harm
        exact .armed hbook fun h => ⟨(hs.2.genuine h).1, (hs.2.genuine h).2⟩
    · exact hs
  · exact .pure

theorem keeps_runImmediate {trigger : Trigger} {rule : Rule}
    (ha : Announces terms s₀ (trigger.event.depth + 1) announce) :
    Keeps (Evolves terms s₀) (runImmediate announce trigger rule) :=
  .bind (keeps_runRule _ _ _ _ _ ha) fun _ => .pure

theorem leads_runRules (hs : Evolves terms s₀ s) {rules : RuleBook} {trigger : Trigger}
    {replace : Bool} (ready : trigger.Ready terms s)
    (ha : Announces terms s₀ (trigger.event.depth + 1) announce) :
    Leads (Evolves terms s₀) (runRules announce rules trigger replace) s fun _ t =>
      Evolves terms s₀ t := by
  have harm : Keeps (fun s => Evolves terms s₀ s ∧ trigger.Ready terms s)
      (((rules.deferred trigger.event.type).filter fun r =>
        r.fits trigger.event trigger.status).forM (armRule trigger replace)) :=
    .forM fun _ _ => keeps_armRule
  refine leads_bind.2 (((harm s ⟨hs, ready⟩).weaken fun _ ht => ht.1).mono fun _ t ht => ?_)
  exact (Keeps.forM fun _ _ => keeps_runImmediate ha) t ht.1

/-- The rules of a version are known once they are asked for. -/
theorem leads_ruleBook (hs : Evolves terms s₀ s) (team : String) (version : Int) :
    Leads (Evolves terms s₀) (ruleBook team version) s fun book t =>
      Evolves terms s₀ t ∧ t.automation.rules.get? (team, version) = some book ∧
        t.items = s.items := by
  simp only [ruleBook, leads_bind, leads_get]
  cases hbook : s.automation.rules.get? (team, version) with
  | some book => exact ⟨hs, hbook, rfl⟩
  | none =>
    simp only [leads_bind, leads_get, leads_ofExcept, Registry.version]
    cases hw : s.registry.version? team version with
    | none => exact hs
    | some w =>
      simp only [changeAutomation, leads_modify, leads_pure]
      refine ⟨hs.step ⟨hs.sound.items, hs.sound.source⟩ rfl fun _ => .learned hw hbook, ?_, trivial⟩
      simp

/-! ## Taking in events -/

/-- A move that automation is told of: the view is as it was heard, and then its rules run. -/
theorem leads_hear (sound : s.Sound) (clock : s.clock = s₀.clock) {m : Moved}
    (genuine : terms.timely → s.Genuine (.moved m))
    (hear : ∀ taken, Steps terms (s₀.view taken) ((s.view taken).hear m))
    (ha : m.depth ≤ s.settings.maxCascadeDepth → Announces terms s₀ (m.depth + 1) announce) :
    Leads (Evolves terms s₀) (handleEvent announce (.moved m)) s fun _ t =>
      Evolves terms s₀ t := by
  simp only [handleEvent, leads_bind, leads_get]
  split
  · rename_i hdeep
    refine ⟨⟨sound.items, sound.source⟩, clock, fun taken => ?_⟩
    have hdeep : (s.view taken).limit < m.depth := hdeep
    have hear := hear taken
    rw [View.hear_of_deep hdeep] at hear
    exact hear
  · rename_i hdepth
    simp only [handleMoved, setWatches, changeAutomation, leads_bind, leads_get, leads_note,
      leads_modify]
    rw [Leads, forM_note]
    have hs : Evolves terms s₀
        { s with
          automation := { s.automation with watches := s.automation.watches.stay m }
          journal := ((s.automation.watches.left m).values.map .left).reverse ++
            .handled (.moved m) :: s.journal } := by
      refine ⟨⟨sound.items, sound.source⟩, clock, fun taken => ?_⟩
      have hdepth : ¬ (s.view taken).limit < m.depth := hdepth
      have hear := hear taken
      rw [View.hear_of_not_deep hdepth] at hear
      have hleft : ∀ notice ∈ (s.automation.watches.left m).values.map Notice.left,
          notice.isTraced := by
        simp [Notice.isTraced]
      exact (view_logAll hleft
        { s with
          automation := { s.automation with watches := s.automation.watches.stay m }
          journal := .handled (.moved m) :: s.journal } taken).symm ▸ hear
    refine (leads_ruleBook hs m.team m.workflowVersion).mono ?_
    rintro book t ⟨ht, hbook, hitems⟩
    refine leads_runRules ht ⟨⟨book, hbook⟩, fun h => ?_⟩ (ha (Int.not_lt.1 hdepth))
    have := genuine h
    exact ⟨this.1.trans (clock.trans ht.clock.symm), hitems ▸ this.2⟩

/-- Watches that were broken are dealt with one after another. -/
theorem leads_runBroken {signal : Signal}
    (ha : AnnouncesAt terms s₀.settings.maxCascadeDepth (signal.depth + 1) announce) :
    ∀ {broken : List (Watch × Rule)} {s : System},
      Owes terms s₀ [] s (broken.map fun p => .broken p.1 signal) →
      Leads (Evolves terms s₀) (broken.forM (runBroken announce signal)) s fun _ t =>
        Evolves terms s₀ t
  | [], s, h => h.evolves
  | p :: rest, s, h => by
    have hnote : Owes terms s₀ [] { s with journal := .broken p.1 signal :: s.journal }
        (rest.map fun p => .broken p.1 signal) :=
      ⟨⟨h.sound.items, h.sound.source⟩, h.clock, fun taken => (h.steps taken).tail (.broke rfl)⟩
    have hroot : Evolves terms _ _ := .refl hnote.sound
    have hrun := keeps_runRule p.2 p.2.onBreak p.1.item p.1.team (.signal signal)
      (ha _ hnote.limit) _ hroot
    refine leads_bind.2 ?_
    simp only [runBroken, leads_bind, leads_note, leads_pure]
    refine (hrun.weaken fun _ ht => (hnote.trans ht).settle.evolves).mono fun _ t ht => ?_
    exact leads_runBroken ha (hnote.trans ht)

/-- What a signal breaks once it is noted; `t` is the system with the note. -/
theorem leads_breakWatches {signal : Signal} {selected : Watch → Bool}
    (hsel : selected = signal.concerns) (sound : t.Sound) (clock : t.clock = s₀.clock)
    (noted : ∀ taken, t.view taken = (s.view taken).log (.handled (.signal signal)))
    (heed : ∀ taken, Steps terms (s₀.view taken) ((s.view taken).heed signal))
    (ha : AnnouncesAt terms s₀.settings.maxCascadeDepth (signal.depth + 1) announce) :
    Leads (Evolves terms s₀) (breakWatches announce signal selected) t fun _ t =>
      Evolves terms s₀ t := by
  subst hsel
  simp only [breakWatches, setWatches, changeAutomation, leads_bind, leads_get, leads_modify]
  rw [Leads, forM_note]
  refine leads_runBroken ha ⟨⟨sound.items, sound.source⟩, clock, fun taken => ?_⟩
  have hpassed : ∀ notice ∈ ((ruleless t.automation signal.concerns).map Notice.ruleless).reverse,
      notice.isTraced = false := by
    simp [Notice.isTraced]
  have hheed : (s.view taken).heed signal =
      { t.view taken with
        watches := (t.view taken).watches.select fun key _ =>
          !((t.view taken).brokenBy signal).any fun w => w.key = key
        taken := ((t.view taken).brokenBy signal).map (.broken · signal) ++ taken } := by
    rw [noted]
    rfl
  have heed := hheed ▸ heed taken
  simp only [View.brokenBy, List.map_map, List.any_map] at heed
  exact (view_untraced hpassed _ _).symm ▸ heed

/-- A signal that automation takes in. -/
theorem leads_heed (sound : s.Sound) {signal : Signal}
    (genuine : terms.timely → s.Genuine (.signal signal))
    (ha : AnnouncesAt terms s.settings.maxCascadeDepth (signal.depth + 1) announce) :
    Leads (Evolves terms s) (handleSignal announce signal)
      { s with journal := .handled (.signal signal) :: s.journal } fun _ t =>
        Evolves terms s t := by
  unfold handleSignal
  split
  · rename_i hteam
    have hsel : (fun w : Watch => decide (signal.team = some w.team)) = signal.concerns := by
      funext w
      simp [Signal.concerns, hteam]
    refine leads_breakWatches hsel ⟨sound.items, sound.source⟩ rfl (fun _ => rfl)
      (fun taken => ?_) ha
    exact .single (.heeded (by simp [hteam]))
  · rename_i id hid
    rw [leads_bind, leads_attempt_loadItem]
    dsimp only
    split
    · rename_i item hitem
      obtain rfl := sound.items id item hitem
      have hover : Evolves terms s (overtake s item.id item) := evolves_overtake (.refl sound) hitem
      obtain ⟨current, hcurrent, -⟩ := overtake_stored hitem
      have hhas : (overtake s item.id item).items.has item.id := by simp [Table.has, hcurrent]
      have hnoted (taken : List Taken) :
          (overtake { s with journal := .handled (.signal signal) :: s.journal } item.id item).view
            taken = ((overtake s item.id item).view taken).log (.handled (.signal signal)) := by
        unfold overtake
        split <;> rfl
      have hsound : (overtake { s with journal := .handled (.signal signal) :: s.journal }
          item.id item).Sound := by
        refine ⟨fun id current h => hover.sound.items id current ?_, ?_⟩
        · exact (congrArg (·.items.get? id) (hnoted [])).symm.trans h
        · have hsource := hover.sound.source
          unfold overtake at hsource ⊢
          split <;> simp_all
      have ha' := ha _ hover.limit
      refine Leads.reroot hover ?_
      simp only [leads_bind]
      have hsel : (fun w : Watch => decide (w.item = item.id)) = signal.concerns := by
        funext w
        simp [Signal.concerns, hid]
      refine (leads_breakWatches hsel hsound (congrArg View.clock (hnoted [])) hnoted
        (fun taken => ?_) (hover.limit ▸ ha)).mono ?_
      · exact .single (.heeded (by simpa [hid, System.view] using hhas))
      rintro _ t ht
      refine (leads_ruleBook ht item.team item.workflowVersion).mono ?_
      rintro book t' ⟨ht', hbook, -⟩
      refine leads_runRules ht' ⟨⟨book, hbook⟩, fun h => ⟨?_, ht'.has hhas⟩⟩ ha'
      exact (hover.trans ht').genuine (genuine h)
    · rename_i hitem
      refine keeps_note rfl _ ?_
      exact (Evolves.refl sound).step ⟨sound.items, sound.source⟩ rfl fun _ => .unknown hid hitem

/-- A signal given to automation. -/
theorem keeps_handleSignal (signal : Signal)
    (genuine : terms.timely → s₀.Genuine (.signal signal))
    (ha : signal.depth ≤ s₀.settings.maxCascadeDepth →
      AnnouncesAt terms s₀.settings.maxCascadeDepth (signal.depth + 1) announce) :
    Keeps (Evolves terms s₀) (handleEvent announce (.signal signal)) := by
  intro s hs
  simp only [handleEvent, leads_bind, leads_get]
  split
  · rename_i hdeep
    exact hs.step ⟨hs.sound.items, hs.sound.source⟩ rfl fun _ => .ignored hdeep
  · rename_i hdepth
    rw [hs.limit] at hdepth
    simp only [leads_bind, leads_note]
    refine Leads.reroot hs (leads_heed hs.sound (fun h => hs.genuine (genuine h)) ?_)
    exact hs.limit ▸ ha (Int.not_lt.1 hdepth)

/-- A move given to automation. -/
theorem keeps_handleMoved {m : Moved} (genuine : terms.timely → s₀.Genuine (.moved m))
    (ha : m.depth ≤ s₀.settings.maxCascadeDepth → Announces terms s₀ (m.depth + 1) announce) :
    Keeps (Evolves terms s₀) (handleEvent announce (.moved m)) := by
  intro s hs
  have hgenuine (h : terms.timely) : s.Genuine (.moved m) := hs.genuine (genuine h)
  refine leads_hear hs.sound hs.clock hgenuine (fun taken => ?_) (hs.limit ▸ ha)
  exact (hs.steps taken).tail (.heard hgenuine)

theorem keeps_handleEvent {event : Event} (genuine : terms.timely → s₀.Genuine event)
    (ha : event.depth ≤ s₀.settings.maxCascadeDepth →
      AnnouncesAt terms s₀.settings.maxCascadeDepth (event.depth + 1) announce) :
    Keeps (Evolves terms s₀) (handleEvent announce event) := by
  cases event with
  | moved m => exact keeps_handleMoved genuine fun h => ha h _ rfl
  | signal signal => exact keeps_handleSignal signal genuine ha

theorem keeps_ingest {signal : Signal} (genuine : terms.timely → s₀.Genuine (.signal signal))
    (ha : signal.depth ≤ s₀.settings.maxCascadeDepth →
      AnnouncesAt terms s₀.settings.maxCascadeDepth (signal.depth + 1) announce) :
    Keeps (Evolves terms s₀) (ingest announce signal) := by
  unfold ingest
  split
  · exact keeps_note rfl
  · intro s hs
    simp only [leads_bind, leads_get]
    refine keeps_handleSignal { signal with time := some (signal.time.getD s.clock) }
      (fun h => ?_) ha s hs
    have := genuine h
    simpa [System.Genuine, View.Genuine, System.view, hs.clock] using this

/-! ## Metrics -/

theorem keeps_ingestAlert {alert : Signal} (genuine : terms.timely → s₀.Genuine (.signal alert))
    (ha : alert.depth ≤ s₀.settings.maxCascadeDepth →
      AnnouncesAt terms s₀.settings.maxCascadeDepth (alert.depth + 1) announce) :
    Keeps (Evolves terms s₀) (ingestAlert announce alert) := by
  refine .bind (.attempt (keeps_ingest genuine ha)) fun result => ?_
  cases result with
  | ok _ => exact .pure
  | error _ => exact keeps_note rfl

theorem keeps_deliverAlert {alert : Signal} (genuine : terms.timely → s₀.Genuine (.signal alert))
    (ha : alert.depth ≤ s₀.settings.maxCascadeDepth →
      AnnouncesAt terms s₀.settings.maxCascadeDepth (alert.depth + 1) announce) :
    Keeps (Evolves terms s₀) (deliverAlert announce alert) := by
  have hpass (sink : AlertSink) : Keeps (Evolves terms s₀) (passAlert announce alert sink) := by
    cases sink with
    | automation => exact keeps_ingestAlert genuine ha
    | failing => exact keeps_note rfl
    | recording | none => exact .pure
  refine .bind .get fun s => ?_
  dsimp only
  split
  · exact .bind (keeps_modify (fun _ _ => rfl) fun _ => rfl) fun _ => hpass s.sink
  · exact hpass s.sink

/-- Alerts tell of the time of the check, at its depth, and are of a type of their own. -/
theorem mem_alerts {now : Instant} {depth : Int} {limits : List Limit} {metrics : Metrics}
    {alerts : List Signal} (h : (metrics.alerts now depth limits).2 = .ok alerts) {alert : Signal}
    (halert : alert ∈ alerts) :
    alert.time = some now ∧ alert.depth = depth ∧ alert.type = "metric_alert" := by
  obtain ⟨limit, -, value, visit, rfl⟩ := Metrics.exists_of_mem_alerts h halert
  exact ⟨rfl, rfl, rfl⟩

/-- Looking for alerts leaves the tracks as they are. -/
theorem tracks_alerts (metrics : Metrics) (now : Instant) (depth : Int) (limits : List Limit) :
    (metrics.alerts now depth limits).1.tracks = metrics.tracks := by
  induction limits generalizing metrics with
  | nil => rfl
  | cons limit rest ih =>
    unfold Metrics.alerts
    split
    · rfl
    · exact ih metrics
    · exact ih _

theorem keeps_checkThresholds {now : Option Instant} {items : List String} {depth : Int}
    (timely : terms.timely → now.getD s₀.clock = s₀.clock)
    (ha : depth ≤ s₀.settings.maxCascadeDepth →
      AnnouncesAt terms s₀.settings.maxCascadeDepth (depth + 1) announce) :
    Keeps (Evolves terms s₀) (checkThresholds announce now items depth) := by
  refine .get_bind fun s hs => ?_
  dsimp only
  rw [leads_bind, leads_modify]
  refine Keeps.ofExcept_bind (fun alerts hfound => .bind (.forM fun alert halert => ?_)
    fun _ => .pure) _ (hs.unseen (fun _ => rfl) rfl)
  obtain ⟨htime, rfl, -⟩ := mem_alerts hfound halert
  refine keeps_deliverAlert (fun h => ?_) ha
  have := timely h
  simp only [System.Genuine, View.Genuine, System.view, htime, hs.clock, Option.getD_some]
  exact this

theorem keeps_measure {m : Moved} (timely : terms.timely → m.time = s₀.clock)
    (ha : m.depth ≤ s₀.settings.maxCascadeDepth →
      AnnouncesAt terms s₀.settings.maxCascadeDepth (m.depth + 1) announce) :
    Keeps (Evolves terms s₀) (measure announce m) := by
  refine .get_bind fun s hs => ?_
  dsimp only
  rw [leads_bind, leads_set]
  have hset : Evolves terms s₀ { s with metrics := (s.metrics.record m (isTerminalStage
      s.registry m.team m.workflowVersion m.targetStage)).1 } := hs.unseen (fun _ => rfl) rfl
  split
  · exact (Keeps.bind (keeps_checkThresholds (fun h => by simpa using timely h) ha)
      fun _ => .pure) _ hset
  · exact hset

/-! ## Delivery -/

theorem keeps_deliver {event : Event} {subscriber : Subscriber}
    (genuine : terms.timely → s₀.Genuine event)
    (ha : event.depth ≤ s₀.settings.maxCascadeDepth →
      AnnouncesAt terms s₀.settings.maxCascadeDepth (event.depth + 1) announce) :
    Keeps (Evolves terms s₀) (deliver announce event subscriber) := by
  cases subscriber with
  | automation => exact keeps_handleEvent genuine ha
  | metrics =>
    cases event with
    | moved m => exact keeps_measure (fun h => (genuine h).1) ha
    | signal signal => exact .pure
  | recorder => exact keeps_modify (fun _ _ => rfl) fun _ => rfl
  | failing name => exact .raise

theorem leads_deliverSafely {event : Event} (subscriber : Subscriber)
    (h : Leads (Evolves terms s₀) (deliver announce event subscriber)
      { s with journal := .delivered subscriber event :: s.journal } fun _ t =>
        Evolves terms s₀ t) :
    Leads (Evolves terms s₀) (deliverSafely announce event subscriber) s fun _ t =>
      Evolves terms s₀ t := by
  simp only [deliverSafely, leads_bind, leads_note]
  refine (h.attempt (Q := fun _ t => Evolves terms s₀ t) fun _ _ ht => ht).mono
    fun result t ht => ?_
  split
  · exact ht
  · exact keeps_note rfl t ht

theorem keeps_deliverSafely {event : Event} (subscriber : Subscriber)
    (genuine : terms.timely → s₀.Genuine event)
    (ha : event.depth ≤ s₀.settings.maxCascadeDepth →
      AnnouncesAt terms s₀.settings.maxCascadeDepth (event.depth + 1) announce) :
    Keeps (Evolves terms s₀) (deliverSafely announce event subscriber) :=
  fun s hs => leads_deliverSafely subscriber (keeps_deliver genuine ha _ (keeps_note rfl s hs))

theorem keeps_publishWith {event : Event} (genuine : terms.timely → s₀.Genuine event)
    (ha : event.depth ≤ s₀.settings.maxCascadeDepth →
      AnnouncesAt terms s₀.settings.maxCascadeDepth (event.depth + 1) announce) :
    Keeps (Evolves terms s₀) (publishWith announce event) := by
  refine keeps_publishWith_of_handOver (.bind .get fun s => ?_)
  dsimp only
  split
  · exact .forM fun subscriber _ => keeps_deliverSafely subscriber genuine ha
  · exact .pure

/-- A pending move is first told to automation, if that is wired. -/
theorem leads_publishWith {m : Moved} (h : Pending terms s₀ s m)
    (ha : m.depth ≤ s₀.settings.maxCascadeDepth →
      AnnouncesAt terms s₀.settings.maxCascadeDepth (m.depth + 1) announce) :
    Leads (Evolves terms s₀) (publishWith announce (.moved m)) s fun _ t => Evolves terms s₀ t := by
  have hlimit : s.settings.maxCascadeDepth = s₀.settings.maxCascadeDepth := by
    simpa [System.view] using (h.steps []).limit
  cases hwired : s.isWired with
  | false =>
    have hs : Evolves terms s₀ s :=
      ⟨h.sound, h.clock, fun taken => by simpa [View.told, System.view, hwired] using h.steps taken⟩
    exact .reroot hs (keeps_publishWith h.genuine (hlimit ▸ ha) s (.refl h.sound))
  | true =>
    have htrace : (Notice.delivered .automation (.moved m)).isTraced = false := rfl
    have hview := view_note htrace s
    have hnoted := h.unseen hview rfl
    have hear (taken) : Steps terms (s₀.view taken) ((s.view taken).hear m) := by
      have hw : (s.view taken).wired = true := hwired
      simpa [View.told, hw] using h.steps taken
    obtain ⟨hopen, hfirst⟩ : s.dispatcher.closed = false ∧
        s.dispatcher.subscribers.head? = some .automation := by
      simpa [System.isWired] using hwired
    obtain ⟨rest, hrest⟩ := List.head?_eq_some_iff.1 hfirst
    refine leads_publishWith_of_handOver ?_
    simp only [handOver, leads_bind, leads_get, hopen, hrest, Bool.not_false, if_true]
    -- The first delivery is looked at from both roots: only from the later one is the item stored.
    have hfirst := (leads_deliverSafely .automation
      (leads_hear hnoted.sound hnoted.clock hnoted.genuine (fun taken => hview taken ▸ hear taken)
        fun hd => ha (hlimit ▸ hd) _ rfl)).and
      (keeps_deliverSafely .automation h.genuine (hlimit ▸ ha) s (.refl h.sound))
    refine leads_bind.2 ((hfirst.weaken fun _ ht => ht.1).mono fun _ t ht => .reroot ht.1 ?_)
    refine Keeps.forM (fun _ _ => keeps_deliverSafely _ (fun hd => ht.2.genuine (h.genuine hd)) ?_)
      t (.refl ht.1.sound)
    exact ht.1.limit ▸ ha

/-! ## Levels -/

/-- A cascade over enough levels lets a system evolve. -/
theorem announcesAt_cascade (n : Nat) {limit depth : Int} (h : levels limit depth ≤ n) :
    AnnouncesAt terms limit depth (cascade n) := by
  induction n generalizing depth with
  | zero =>
    unfold levels at h
    omega
  | succ n ih =>
    rintro s₀ rfl s m rfl hm
    refine leads_publishWith hm fun hdepth => ih ?_
    unfold levels at h ⊢
    omega

theorem announcesAt_publish (limit depth : Int) : AnnouncesAt terms limit depth publish := by
  rintro s₀ rfl s m rfl hm
  have hlimit : s.settings.maxCascadeDepth = s₀.settings.maxCascadeDepth := by
    simpa [System.view] using (hm.steps []).limit
  simp only [publish, leads_bind, leads_get, hlimit]
  exact announcesAt_cascade _ (Nat.le_refl _) s₀ rfl s m rfl hm

theorem keeps_publish {event : Event} (genuine : terms.timely → s₀.Genuine event) :
    Keeps (Evolves terms s₀) (publish event) := by
  refine .get_bind fun s hs => ?_
  rw [hs.limit]
  refine keeps_publishWith genuine (fun hdepth => announcesAt_cascade _ ?_) s hs
  unfold levels
  omega

/-! ## The evaluator -/

/-- A due watch is dealt with: it is promoted, or let go of. -/
theorem leads_promote {now : Instant} {watch : Watch} {owing owed : List Taken}
    (h : Owes terms s₀ owing s (.due watch now :: owed))
    (ha : AnnouncesAt terms s₀.settings.maxCascadeDepth (watch.trigger.depth + 1) announce) :
    Leads (fun t => Owes terms s₀ owing t []) (promote announce now watch) s fun _ t =>
      Owes terms s₀ owing t owed := by
  simp only [promote, leads_bind, leads_attempt_loadItem]
  split
  · rename_i item hitem
    have hover := h.trans (evolves_overtake (.refl h.sound) hitem)
    obtain ⟨current, hcurrent, hstatus⟩ := overtake_stored hitem
    split
    · exact hover.abandon
    · rename_i hstays
      simp only [leads_bind, leads_get]
      split
      · have hnote : Keeps (Evolves terms (overtake s watch.item item)) (note (.ruleless watch)) :=
          keeps_note rfl
        exact hover.abandon.trans (hnote _ (.refl hover.sound))
      · rename_i rule hrule
        simp only [leads_bind, leads_note, leads_pure]
        have hnote : Owes terms s₀ owing { overtake s watch.item item with
            journal := .promoted watch now :: (overtake s watch.item item).journal } owed :=
          ⟨⟨hover.sound.items, hover.sound.source⟩, hover.clock, fun taken =>
            (hover.steps taken).tail
              (.promoted rfl hcurrent (hstatus.trans (Decidable.not_not.1 hstays)) hrule)⟩
        have hrun := keeps_fire rule (ha _ hnote.limit) _ (.refl hnote.sound)
        exact (hrun.weaken fun _ ht => (hnote.trans ht).settle).mono fun _ _ ht => hnote.trans ht
  · have hnote : Keeps (Evolves terms s) (note (.watchDiscarded watch.rule watch.item)) :=
      keeps_note rfl
    exact h.abandon.trans (hnote s (.refl h.sound))

/-- Due watches are dealt with one after another. -/
theorem leads_promoteAll {now : Instant} {owing : List Taken}
    (ha : ∀ depth, AnnouncesAt terms s₀.settings.maxCascadeDepth depth announce) :
    ∀ {due : List Watch} {s : System}, Owes terms s₀ owing s (due.map (.due · now)) →
      Leads (fun t => Owes terms s₀ owing t []) (due.filterMapM (promote announce now)) s
        fun _ t => Owes terms s₀ owing t []
  | [], _, h => h
  | _ :: _, _, h => leads_filterMapM_cons.2 <|
    (leads_promote h (ha _)).mono fun _ _ ht => leads_promoteAll ha ht

theorem keeps_runHook {now : Instant} {hook : TickHook}
    (timely : terms.timely → now = s₀.clock)
    (ha : ∀ depth, AnnouncesAt terms s₀.settings.maxCascadeDepth depth announce) :
    Keeps (Evolves terms s₀) (runHook announce now hook) := by
  cases hook with
  | thresholds =>
    refine .bind (.attempt (keeps_checkThresholds timely fun _ => ha _)) fun result => ?_
    cases result with
    | ok _ => exact .pure
    | error _ => exact keeps_note rfl
  | failing => exact keeps_note rfl
  | notifying => exact keeps_modify (fun _ _ => rfl) fun _ => rfl

end Run

/-- The system after the watches that are due are taken out of the table. -/
def System.collected (s : System) (now : Instant) : System :=
  { s with
    automation := { s.automation with watches := s.automation.watches.notDue now }
    journal := .collected (s.automation.watches.due now) now :: s.journal }

theorem System.step_collected {now : Instant} (timely : terms.timely → now = s.clock) :
    Step terms (s.view [])
      ((s.collected now).view ((s.automation.watches.due now).map (.due · now) ++ [])) :=
  .collected timely rfl

namespace Run

variable {announce : Event → Run Unit}

/-- A tick takes the due watches out of the table, while no other watch is out of it, and deals with
them. -/
theorem leads_tick {time : Option Instant} (sound : s.Sound)
    (timely : terms.timely → time.getD s.clock = s.clock)
    (ha : ∀ depth, AnnouncesAt terms s.settings.maxCascadeDepth depth announce) :
    Leads (Reaches terms s) (tick announce time) s fun _ t => Reaches terms s t := by
  simp only [tick, setWatches, changeAutomation, leads_bind, leads_get]
  generalize time.getD s.clock = now at timely ⊢
  split
  · exact ⟨sound, .refl⟩
  simp only [leads_bind, leads_get, leads_modify, leads_note, leads_pure]
  have hstart : Owes terms (s.collected now) ((s.automation.watches.due now).map (.due · now))
      (s.collected now) ((s.automation.watches.due now).map (.due · now)) :=
    .refl ⟨sound.items, sound.source⟩
  have hsettled {t : System} (ht : Owes terms (s.collected now)
      ((s.automation.watches.due now).map (.due · now)) t []) : Reaches terms s t :=
    ⟨ht.sound, .head (System.step_collected timely) (ht.steps [])⟩
  have hlimit (depth : Int) :
      AnnouncesAt terms (s.collected now).settings.maxCascadeDepth depth announce := ha depth
  have hpromote := leads_promoteAll hlimit hstart
  refine (hpromote.weaken fun _ => hsettled).mono fun _ t ht => ?_
  have hnow : terms.timely → now = t.clock := fun h => (timely h).trans ht.clock.symm
  have ha' (depth : Int) : AnnouncesAt terms t.settings.maxCascadeDepth depth announce :=
    ht.limit ▸ ha depth
  have hrun : Keeps (Evolves terms t) (t.automation.hooks.forM (runHook announce now)) :=
    .forM fun _ _ => keeps_runHook hnow ha'
  have hhooks {u : System} (hu : Evolves terms t u) : Reaches terms s u :=
    (hsettled ht).trans hu.reaches
  exact ((hrun t (.refl ht.sound)).weaken fun _ => hhooks).mono fun _ _ => hhooks

end Run

end Stageflow
