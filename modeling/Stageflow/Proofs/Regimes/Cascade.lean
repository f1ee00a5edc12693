import Stageflow.Proofs.Evolution.Cascade
import Stageflow.Proofs.Regimes.Items
import Stageflow.Proofs.Tables

/-!
# How regimes stand along cascades

While an action is carried out, the setting is the one within it, and the end of the action restores
the setting that it was begun in. Everything else that an event causes happens in the setting in
which the event is taken in, so an announcement over any number of levels keeps a regime standing.
-/

namespace Stageflow.Regime

open Run

theorem isQuiet_of_isOfAction {notice : Notice} (h : notice.isOfAction) : notice.isQuiet := by
  cases notice <;> first | rfl | cases h

variable {κ : Type} {R : Regime κ} {k : κ} {s₀ s : System} {announce : Event → Run Unit}
  (lawful : R.Lawful) (ha : R.Announces announce)

/-! ## Actions -/

section

include lawful

theorem tolerates_after (item : String) : Tolerates (R.After k s₀) item where
  note h hs := hs.quiet lawful (isQuiet_of_isOfAction h)
  drawn _ hs := hs.beside lawful ⟨rfl, .same, rfl, rfl, rfl, rfl⟩ fun _ hp => hp
  recorded _ hs := hs.beside lawful ⟨rfl, .same, rfl, rfl, rfl, rfl⟩ fun _ hp => hp
  runner _ hs := hs.beside lawful ⟨rfl, .same, rfl, rfl, rfl, rfl⟩ fun _ hp => hp

include ha

/-- An action is executed in the setting within it, and its end leads back. -/
theorem keeps_carryOut {context : ActionContext} (licensed : R.Licensed k context)
    (action : Action) : Keeps (R.After k s₀) (carryOut announce action context) := by
  intro s h
  obtain ⟨level, begun⟩ := lawful.began action.type h.stands.holds licensed
  have hexecute : Keeps (R.After (R.within k context) s₀) (execute announce action context) :=
    (tolerates_after lawful context.item).keeps_execute (keeps_loadItem lawful _) fun target =>
      keeps_moveItem lawful ha context.item target level
  have hended {t : System} (ht : R.After (R.within k context) s₀ t) :
      R.After k s₀ { t with journal := .ended action.type context.rule :: t.journal } :=
    ht.noted [_] (lawful.ended ht.stands.holds)
  simp only [carryOut, leads_bind, leads_note]
  exact Leads.tryFinally ((hexecute _ (h.noted [_] begun)).mono fun _ t ht => hended ht)
    fun t ht => hended ht

theorem keeps_runActions {context : ActionContext} (licensed : R.Licensed k context)
    (actions : List Action) : Keeps (R.After k s₀) (runActions announce context actions) :=
  (tolerates_after lawful context.item).keeps_runActions (keeps_carryOut lawful ha licensed)

/-! ## Rules -/

/-- A rule that is triggered at once has its actions run. -/
theorem leads_runImmediate (h : R.After k s₀ s) {trigger : Trigger} {book : RuleBook}
    (triggers : R.Triggers k s trigger book) {rule : Rule}
    (immediate : rule ∈ book.immediate trigger.event.type)
    (fits : rule.fits trigger.event trigger.status) :
    Leads (R.After k s₀) (runImmediate announce trigger rule) s fun _ t => R.After k s₀ t := by
  have hran : R.After k s₀
      { s with journal := .ran rule trigger.item trigger.event :: s.journal } :=
    h.noted [_] (lawful.served h.stands.holds triggers immediate fits)
  simp only [runImmediate, runRule, leads_bind, leads_note, leads_pure]
  exact keeps_runActions lawful ha (.heard triggers.places.hears rfl) rule.actions _ hran

omit ha in
/-- A deferred rule that is triggered has its watch armed, unless one is armed that is kept. -/
theorem leads_armRule (h : R.After k s₀ s) {trigger : Trigger} {book : RuleBook}
    (triggers : R.Triggers k s trigger book) {rule : Rule} {replace : Bool}
    (deferred : rule ∈ book.deferred trigger.event.type)
    (fits : rule.fits trigger.event trigger.status) :
    Leads (R.After k s₀) (armRule trigger replace rule) s fun _ t => R.After k s₀ t := by
  unfold armRule
  split
  · rename_i seconds hduration
    simp only [arm, leads_bind, leads_get, leads_ofReading]
    split
    · rename_i dueAt hdue
      split
      · exact h
      · rename_i watches harm
        simp only [setWatches, changeAutomation, leads_bind, leads_modify, leads_note]
        let watch : Watch := {
          item := trigger.item, team := trigger.team, rule := rule.id
          workflowVersion := trigger.workflowVersion, status := trigger.status
          armedAt := trigger.event.time?.getD s.clock, dueAt, trigger := trigger.event }
        have hnoted := h.noted [.armed watch]
          (lawful.armed h.stands.holds triggers deferred fits
            ⟨⟨seconds, hduration, hdue⟩, rfl, rfl, rfl, rfl, rfl, rfl⟩)
        refine ⟨⟨lawful.beside hnoted.stands.holds ⟨rfl, .same, rfl, rfl, rfl, rfl⟩,
          h.stands.keyed, ?_⟩,
          hnoted.follows.journal, hnoted.follows.rules⟩
        -- The watch is the only one that this puts into the table, and it was just noted.
        obtain rfl := Watches.eq_put_of_arm harm
        intro p hp
        obtain rfl | hp := Table.mem_put hp
        · exact List.mem_cons_self
        · exact hnoted.stands.armed p hp
    · exact h
  · exact h

theorem leads_runRules (h : R.After k s₀ s) {trigger : Trigger} {book : RuleBook}
    (triggers : R.Triggers k s trigger book) (replace : Bool) :
    Leads (R.After k s₀) (runRules announce book trigger replace) s fun _ t =>
      R.After k s₀ t := by
  refine h.run (.bind (.forM fun rule hrule t ht => ?_) fun _ => .forM fun rule hrule t ht => ?_)
  · obtain ⟨deferred, fits⟩ := List.mem_filter.1 hrule
    exact leads_armRule lawful ht (triggers.later ht.follows) deferred fits
  · obtain ⟨immediate, fits⟩ := List.mem_filter.1 hrule
    exact leads_runImmediate lawful ha ht (triggers.later ht.follows) immediate fits

omit ha in
/-- The rules of a version are known once they are asked for. -/
theorem leads_ruleBook (h : R.After k s₀ s) (team : String) (version : Int) :
    Leads (R.After k s₀) (ruleBook team version) s fun book t =>
      R.After k s₀ t ∧ t.automation.rules.get? (team, version) = some book := by
  simp only [ruleBook, leads_bind, leads_get]
  cases hbook : s.automation.rules.get? (team, version) with
  | some book => exact ⟨h, hbook⟩
  | none =>
    simp only [leads_bind, leads_get, leads_ofExcept, Registry.version]
    cases hw : s.registry.version? team version with
    | none => exact h
    | some w =>
      simp only [changeAutomation, leads_modify, leads_pure]
      exact ⟨⟨⟨lawful.learned h.stands.holds hbook hw, h.stands.keyed, h.stands.armed⟩,
        h.follows.journal, fun key book hkey =>
          Table.get?_put_of_unused hbook (h.follows.rules key book hkey)⟩, Table.get?_put_self ..⟩

/-! ## Taking in events -/

/-- A move that is noted as taken in triggers the rules of its version. -/
theorem leads_handleMoved (h : R.After k s₀ s) {m : Moved} (heard : R.hears k (.moved m))
    (handled : .handled (.moved m) ∈ s.journal) :
    Leads (R.After k s₀) (handleMoved announce m) s fun _ t => R.After k s₀ t := by
  refine h.run (.get_bind fun t ht => ?_)
  simp only [setWatches, changeAutomation, leads_bind, leads_modify]
  have hstay : R.After k s { t with
      automation := { t.automation with watches := t.automation.watches.stay m } } :=
    ht.beside lawful ⟨rfl, .same, rfl, rfl, rfl, rfl⟩ fun _ hp => (List.mem_filter.1 hp).1
  refine (keeps_forM_note lawful (fun _ => rfl) _ hstay).mono fun _ u hu => ?_
  refine (leads_ruleBook lawful hu m.team m.workflowVersion).mono ?_
  rintro book v ⟨hv, known⟩
  exact leads_runRules lawful ha hv ⟨.moved heard, hv.follows.journal _ handled, known⟩ true

omit lawful ha in
theorem mem_ruleless {a : Automation} {selected : Watch → Bool} {watch : Watch}
    (h : watch ∈ ruleless a selected) :
    (∃ key, (key, watch) ∈ a.watches) ∧ ruleOf? a watch = none := by
  obtain ⟨hmem, hnone⟩ := List.mem_filter.1 h
  obtain ⟨entry, hentry, rfl⟩ := List.mem_map.1 hmem
  exact ⟨⟨entry.1, hentry⟩, Option.isNone_iff_eq_none.1 (Bool.and_eq_true_iff.1 hnone).2⟩

omit lawful ha in
/-- The watches that a signal breaks were in the table, with the rules that automation has for them.
-/
theorem mem_brokenBy {a : Automation} {signal : Signal} {selected : Watch → Bool}
    {p : Watch × Rule} (h : p ∈ brokenBy a signal selected) :
    (∃ key, (key, p.1) ∈ a.watches) ∧ ruleOf? a p.1 = some p.2 := by
  obtain ⟨watch, hwatch, hp⟩ := List.mem_filterMap.1 h
  obtain ⟨entry, hentry, rfl⟩ := List.mem_map.1 hwatch
  split at hp
  · obtain ⟨rule, hrule, hp⟩ := Option.bind_eq_some_iff.1 hp
    split at hp <;> cases hp
    exact ⟨⟨entry.1, hentry⟩, hrule⟩
  · cases hp

/-- A broken watch has its rule's actions for that case run. -/
theorem leads_runBroken (h : R.After k s₀ s) {signal : Signal} {broken : Watch × Rule}
    (heard : R.hears k (.signal signal)) (armed : .armed broken.1 ∈ s.journal)
    (rule : ruleOf? s.automation broken.1 = some broken.2) :
    Leads (R.After k s₀) (runBroken announce signal broken) s fun _ t => R.After k s₀ t := by
  have hran : R.After k s₀ { s with
      journal := .ran broken.2 broken.1.item (.signal signal) :: .broken broken.1 signal ::
        s.journal } :=
    h.noted [_, _] (lawful.broken h.stands.holds armed rule heard)
  simp only [runBroken, runRule, leads_bind, leads_note, leads_pure]
  exact keeps_runActions lawful ha (.heard heard rfl) broken.2.onBreak _ hran

omit ha in
/-- Armed watches whose rule is not found are passed over. -/
theorem After.ruleless {watches : List Watch} (h : R.After k s₀ s)
    (armed : ∀ watch ∈ watches, .armed watch ∈ s.journal)
    (unknown : ∀ watch ∈ watches, ruleOf? s.automation watch = none) :
    Leads (R.After k s₀) (watches.forM fun watch => note (.ruleless watch)) s fun _ t =>
      R.After k s₀ t := by
  induction watches generalizing s with
  | nil => exact h
  | cons watch rest ih =>
    refine leads_bind.2 ?_
    have hnoted : R.After k s₀ { s with journal := .ruleless watch :: s.journal } :=
      h.noted [_] (lawful.ruleless h.stands.holds (armed watch (by simp)) (unknown watch (by simp)))
    exact ih hnoted (fun other hother => List.mem_cons_of_mem _ (armed other (by simp [hother])))
      fun other hother => unknown other (by simp [hother])

theorem keeps_breakWatches {signal : Signal} {selected : Watch → Bool}
    (heard : R.hears k (.signal signal)) :
    Keeps (R.After k s₀) (breakWatches announce signal selected) := by
  refine .get_bind fun s h => h.reroot ?_
  simp only [setWatches, changeAutomation, leads_bind, leads_modify]
  have hselect : R.After k s { s with
      automation := { s.automation with
        watches := s.automation.watches.select fun key _ =>
          !(brokenBy s.automation signal selected).any fun p => p.1.key = key } } :=
    (After.refl h.stands).beside lawful ⟨rfl, .same, rfl, rfl, rfl, rfl⟩ fun _ hp =>
      (List.mem_filter.1 hp).1
  have hpassed : Leads (R.After k s)
      ((ruleless s.automation selected).forM fun watch => note (.ruleless watch)) _ fun _ t =>
        R.After k s t :=
    hselect.ruleless lawful
      (fun watch hwatch => (mem_ruleless hwatch).1.elim fun key hkey => h.stands.armed _ hkey)
      fun watch hwatch => (mem_ruleless hwatch).2
  refine hpassed.mono fun _ t ht => Keeps.forM (fun p hp u hu => ?_) t ht
  obtain ⟨⟨key, hkey⟩, hrule⟩ := mem_brokenBy hp
  exact leads_runBroken lawful ha hu heard (hu.follows.journal _ (h.stands.armed _ hkey))
    (hu.follows.ruleOf? hrule)

/-- A signal that is noted as taken in breaks watches, and triggers the rules of its item. -/
theorem leads_handleSignal (h : R.After k s₀ s) {signal : Signal}
    (heard : R.hears k (.signal signal)) (handled : .handled (.signal signal) ∈ s.journal) :
    Leads (R.After k s₀) (handleSignal announce signal) s fun _ t => R.After k s₀ t := by
  unfold handleSignal
  split
  · exact keeps_breakWatches lawful ha heard s h
  · rename_i id _
    rw [leads_bind, leads_attempt_loadItem]
    split
    · rename_i item hitem
      obtain rfl := h.stands.keyed id item hitem
      have hover := (After.refl h.stands).overtake lawful hitem
      refine h.reroot (leads_bind.2 ((keeps_breakWatches lawful ha heard _ hover).mono ?_))
      intro _ t ht
      refine leads_bind.2 ((leads_ruleBook lawful ht item.team item.workflowVersion).mono ?_)
      rintro book u ⟨hu, known⟩
      exact leads_runRules lawful ha hu ⟨.signal heard h.stands.holds hitem,
        hu.follows.journal _ handled, known⟩ false
    · exact keeps_note lawful rfl s h

theorem keeps_handleEvent {event : Event} (heard : R.hears k event) :
    Keeps (R.After k s₀) (handleEvent announce event) := by
  refine .get_bind fun s h => ?_
  dsimp only
  split
  · rename_i hdepth
    exact h.told lawful heard (.dropped hdepth)
  · rename_i hdepth
    have hnoted := h.told lawful heard (.handled (Int.not_lt.1 hdepth))
    rw [leads_bind, leads_note]
    cases event with
    | moved m => exact leads_handleMoved lawful ha hnoted heard List.mem_cons_self
    | signal signal => exact leads_handleSignal lawful ha hnoted heard List.mem_cons_self

theorem keeps_ingest {signal : Signal} (heard : R.hears k (.signal signal)) :
    Keeps (R.After k s₀) (ingest announce signal) := by
  unfold ingest
  split
  · exact keeps_note lawful rfl
  · exact .bind .get fun _ => keeps_handleEvent lawful ha (lawful.stamped _ heard)

/-! ## Metrics -/

theorem keeps_deliverAlert {alert : Signal} (heard : R.hears k (.signal alert)) :
    Keeps (R.After k s₀) (deliverAlert announce alert) := by
  have hpass (sink : AlertSink) : Keeps (R.After k s₀) (passAlert announce alert sink) := by
    cases sink with
    | automation =>
      refine .bind (.attempt (keeps_ingest lawful ha heard)) fun result => ?_
      cases result with
      | ok _ => exact .pure
      | error _ => exact keeps_note lawful rfl
    | failing => exact keeps_note lawful rfl
    | recording | none => exact .pure
  refine .bind .get fun s => ?_
  dsimp only
  split
  · exact .bind (keeps_modify lawful (fun _ => ⟨rfl, .same, rfl, rfl, rfl, rfl⟩)
      fun _ => rfl) fun _ => hpass s.sink
  · exact hpass s.sink

theorem keeps_checkThresholds {now : Option Instant} {items : List String} {depth : Int}
    (level : R.level k depth) :
    Keeps (R.After k s₀) (checkThresholds announce now items depth) := by
  refine .bind .get fun s => .bind (keeps_modify lawful (fun _ => ⟨rfl, .same, rfl, rfl, rfl, rfl⟩)
    fun _ => rfl) fun _ => .ofExcept_bind fun alerts hfound =>
      .bind (.forM fun alert halert => ?_) fun _ => .pure
  obtain ⟨-, rfl, htype⟩ := mem_alerts hfound halert
  exact keeps_deliverAlert lawful ha (lawful.alerted level htype)

theorem keeps_measure {m : Moved} (heard : R.hears k (.moved m)) :
    Keeps (R.After k s₀) (measure announce m) := by
  refine .get_bind fun s h => ?_
  simp only [leads_bind, leads_set]
  have hset : R.After k s₀ { s with
      metrics := (s.metrics.record m (isTerminalStage s.registry m.team m.workflowVersion
        m.targetStage)).1 } :=
    h.beside lawful ⟨rfl, .same, rfl, rfl, rfl, rfl⟩ fun _ hp => hp
  split
  · exact Keeps.bind (keeps_checkThresholds lawful ha (lawful.measured heard)) (fun _ => .pure) _
      hset
  · exact hset

/-! ## Delivery -/

theorem keeps_deliver {event : Event} {subscriber : Subscriber} (heard : R.hears k event) :
    Keeps (R.After k s₀) (deliver announce event subscriber) := by
  cases subscriber with
  | automation => exact keeps_handleEvent lawful ha heard
  | metrics =>
    cases event with
    | moved m => exact keeps_measure lawful ha heard
    | signal signal => exact .pure
  | recorder => exact keeps_modify lawful (fun _ => ⟨rfl, .same, rfl, rfl, rfl, rfl⟩) fun _ => rfl
  | failing name => exact .raise

theorem keeps_publishWith {event : Event} (heard : R.hears k event) :
    Keeps (R.After k s₀) (publishWith announce event) := by
  refine keeps_publishWith_of_handOver (.bind .get fun s => ?_)
  dsimp only
  split
  · have hnoted (subscriber : Subscriber) :
        Keeps (R.After k s₀) (note (.delivered subscriber event)) :=
      .modify fun _ hs => hs.told lawful heard (.delivered subscriber)
    refine .forM fun subscriber _ => .bind (hnoted subscriber) fun _ =>
      .bind (.attempt (keeps_deliver lawful ha heard)) fun result => ?_
    cases result with
    | ok _ => exact .pure
    | error _ => exact keeps_note lawful rfl
  · exact .pure

omit ha in
/-- What is announced over any number of levels keeps a regime standing. -/
theorem announces_cascade (n : Nat) : R.Announces (cascade n) := by
  induction n with
  | zero => exact fun _ _ _ _ => .pure
  | succ n ih => exact fun k s₀ event heard => keeps_publishWith lawful ih heard

omit ha in
theorem announces_publish : R.Announces publish :=
  fun k s₀ event heard => .bind .get fun _ => announces_cascade lawful _ k s₀ event heard

/-! ## The evaluator -/

omit lawful ha in
theorem mem_of_mem_due {watches : Watches} {now : Instant} {watch : Watch}
    (h : watch ∈ watches.due now) : ∃ key, (key, watch) ∈ watches := by
  obtain ⟨entry, hentry, rfl⟩ := List.mem_map.1 (List.mem_filter.1 (mem_sortBy.1 h)).1
  exact ⟨entry.1, hentry⟩

/-- While a watch is promoted, its rule's actions run in a setting of their own. -/
theorem leads_fire (h : R.After k s₀ s) (idle : R.idle k) {watch : Watch} {rule : Rule}
    {now : Instant} (armed : .armed watch ∈ s.journal)
    (hrule : ruleOf? s.automation watch = some rule) :
    Leads (R.After k s₀) (fire announce watch rule)
      { s with journal := .promoted watch now :: s.journal } fun _ t => R.After k s₀ t := by
  have hran : R.After (R.during k watch) s₀ { s with
      journal := .ran rule watch.item watch.trigger :: .promoted watch now :: s.journal } :=
    h.noted [_, _] (lawful.promoted idle h.stands.holds armed hrule)
  have hfired {t : System} (ht : R.After (R.during k watch) s₀ t) :
      R.After k s₀ { t with journal := .fired watch :: t.journal } :=
    ht.noted [_] (lawful.fired idle ht.stands.holds)
  have hactions : Keeps (R.After (R.during k watch) s₀)
      (runActions announce
        { rule := rule.id, item := watch.item, team := watch.team, event := watch.trigger
          depth := watch.trigger.depth } rule.actions) :=
    keeps_runActions lawful ha (.promoted idle rfl rfl) rule.actions
  refine Leads.tryFinally ?_ fun t ht => hfired ht
  simp only [runRule, leads_bind, leads_note]
  exact (hactions _ hran).mono fun _ t ht => hfired ht

/-- A watch that was taken out of the table is promoted, or let go of. -/
theorem leads_promote (h : R.After k s₀ s) (idle : R.idle k) {watch : Watch} {now : Instant}
    (armed : .armed watch ∈ s.journal) :
    Leads (R.After k s₀) (promote announce now watch) s fun _ t => R.After k s₀ t := by
  simp only [promote, leads_bind, leads_attempt_loadItem]
  split
  · rename_i item hitem
    have hover := h.overtake lawful hitem
    have harmed := ((After.refl h.stands).overtake lawful hitem).follows.journal _ armed
    split
    · exact hover
    · simp only [leads_bind, leads_get]
      split
      · rename_i hnone
        simp only [leads_bind, leads_note, leads_pure]
        exact hover.noted [_] (lawful.ruleless hover.stands.holds harmed hnone)
      · rename_i rule hrule
        simp only [leads_bind, leads_note, leads_pure]
        exact leads_fire lawful ha hover idle harmed hrule
  · exact keeps_note lawful rfl s h

theorem keeps_runHook (level : R.level k 0) {now : Instant} {hook : TickHook} :
    Keeps (R.After k s₀) (runHook announce now hook) := by
  cases hook with
  | thresholds =>
    refine .bind (.attempt (keeps_checkThresholds lawful ha level)) fun result => ?_
    cases result with
    | ok _ => exact .pure
    | error _ => exact keeps_note lawful rfl
  | failing => exact keeps_note lawful rfl
  | notifying => exact keeps_modify lawful (fun _ => ⟨rfl, .same, rfl, rfl, rfl, rfl⟩) fun _ => rfl

/-- The watches that a tick takes out of the table were armed, whatever happens before their turn.
-/
theorem keeps_tick (idle : R.idle k) {time : Option Instant} :
    Keeps (R.After k s₀) (tick announce time) := by
  intro s h
  refine h.reroot ?_
  simp only [tick, setWatches, changeAutomation, leads_bind, leads_get]
  generalize time.getD s.clock = now
  split
  · exact .refl h.stands
  simp only [leads_bind, leads_get, leads_modify, leads_note, leads_pure]
  have hcollect : R.After k s { s with
      automation := { s.automation with watches := s.automation.watches.notDue now } } :=
    (After.refl h.stands).beside lawful ⟨rfl, .same, rfl, rfl, rfl, rfl⟩ fun _ hp =>
      (List.mem_filter.1 hp).1
  have hnoted : (Notice.collected (s.automation.watches.due now) now).isQuiet := rfl
  have hpromote : Keeps (R.After k s)
      ((s.automation.watches.due now).filterMapM (promote announce now)) := by
    refine .filterMapM fun watch hwatch t ht => ?_
    obtain ⟨key, hkey⟩ := mem_of_mem_due hwatch
    exact leads_promote lawful ha ht idle (ht.follows.journal _ (h.stands.armed _ hkey))
  refine (hpromote _ (hcollect.quiet lawful hnoted)).mono fun _ t ht => ?_
  exact ((Keeps.forM fun _ _ => keeps_runHook lawful ha (lawful.ground idle)) t ht).mono
    fun _ _ hu => hu

end

end Stageflow.Regime
