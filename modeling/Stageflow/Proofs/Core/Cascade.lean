import Stageflow.Proofs.Core.Items
import Stageflow.Proofs.Evolution.Cascade

/-!
# What actions and cascades do to the core

Actions and cascades reach the core by moves alone: whatever moves preserve, and mere touches too,
they preserve. Where no action moves an item, nothing need be known of moves.
-/

namespace Stageflow

open Run Stageflow.Core

/-- Whether actions of a type move the item. -/
def ActionType.isMove : ActionType → Bool
  | .rollback | .autoTransition => true
  | _ => false

namespace Run

variable {I H : Core → Prop} {P : Moved → Core → Prop} {limit : Int} {s : System}
  {announce : Event → Run Unit}

/-! ## Actions -/

section Actions

variable {α : Type} {context : ActionContext}

theorem stays_parameter {action : ActionType} {params : Fields} {name : String} :
    Stays (On I) (On H) (parameter action params name) := by
  unfold parameter
  split
  · exact .pure
  · exact .raise

theorem stays_need {c : Collaborator} : Stays (On I) (On H) (need c) := by
  refine .bind .get fun s => ?_
  split
  · exact .raise
  · exact .pure

/-- A call hangs only where its collaborator does. -/
theorem stays_call (steady : Steady limit I H) {c : Collaborator} {effect : Run α}
    (h : Stays (On I) (On H) effect) : Stays (On I) (On H) (call c effect) := by
  refine .get_bind fun s hs => ?_
  split
  · exact hs
  · exact hs
  · rename_i hhanging
    exact steady.hangs hs hhanging
  · exact h s hs

theorem stays_record {change : Records → Records} : Stays (On I) (On H) (record change) :=
  stays_modify fun _ => rfl

theorem stays_rollbackTarget (steady : Steady limit I H) {params : Fields} :
    Stays (On I) (On H) (rollbackTarget context params) := by
  unfold rollbackTarget
  split
  · refine .bind (stays_loadItem steady _) fun item => ?_
    split
    · exact .pure
    · exact .raise
  · exact .pure

/-- An action that does not move its item leaves all but the item's version as it is. -/
theorem stays_execute (steady : Steady limit I H) {action : Action}
    (hmove : action.type.isMove → Moves I H (context.depth + 1) announce) :
    Stays (On I) (On H) (execute announce action context) := by
  refine .bind (stays_loadItem steady _) fun item => .bind .ofExcept fun params => ?_
  split
  · exact .bind stays_need fun _ => .bind stays_parameter fun _ =>
      .bind (stays_call steady stays_record) fun _ => .ofReading
  · exact .bind stays_need fun _ => .bind stays_parameter fun _ =>
      .bind (stays_call steady (.bind stays_newId fun _ => .bind stays_record fun _ => .pure))
        fun _ => .pure
  · exact .bind stays_need fun _ => .bind stays_parameter fun _ =>
      .bind (stays_call steady stays_record) fun _ => .ofReading
  · exact .bind stays_need fun _ => .bind .ofExcept fun _ => .bind stays_parameter fun _ =>
      .bind stays_parameter fun _ => .bind (stays_call steady stays_record) fun _ => .ofReading
  · exact .bind stays_need fun _ => .bind stays_parameter fun _ =>
      .bind (stays_call steady stays_record) fun _ => .ofReading
  · rename_i htype
    have hmoves := hmove (by rw [htype]; rfl)
    exact .bind (stays_rollbackTarget steady) fun _ =>
      .bind (.bind (stays_note rfl) fun _ => hmoves _ _ _ rfl) fun _ => .pure
  · rename_i htype
    have hmoves := hmove (by rw [htype]; rfl)
    exact .bind stays_parameter fun _ =>
      .bind (.bind (stays_note rfl) fun _ => hmoves _ _ _ rfl) fun _ => .pure

theorem stays_failed {action : ActionType} {rule : String} {fault : Fault} :
    Stays (On I) (On H) (failed action rule fault) := by
  unfold failed
  split
  · exact .bind (stays_note rfl) fun _ => .pure
  · exact .pure

theorem stays_timedOut {action : ActionType} {rule : String} :
    Stays (On I) (On H) (timedOut action rule) :=
  .bind .get fun _ => .bind (stays_note rfl) fun _ => .pure

theorem stays_giveUp {action : ActionType} {rule : String} :
    Stays (On I) (On H) (giveUp action rule) := by
  refine .bind .get fun s => ?_
  split
  · exact stays_failed
  · exact stays_timedOut

theorem stays_outcomeOf {action : ActionType} {rule : String} :
    ∀ result, Stays (On I) (On H) (outcomeOf action rule result)
  | .ok _ => .pure
  | .error _ => stays_failed

theorem stays_outcomeFrom {action : ActionType} {rule : String} (result : Except Fault String) :
    Stays (On I) (On H) (outcomeFrom action rule result) := by
  refine .bind .get fun s => ?_
  split
  · exact stays_failed
  · exact stays_outcomeOf result

/-- What hangs on a worker is given up, and the worker stays behind. -/
theorem stays_onWorker (steady : Steady limit I H) {action : ActionType} {rule : String}
    {body : Run String} (h : Stays (On I) (On H) body) :
    Stays (On I) (On H) (onWorker action rule body) := by
  refine .bind .get fun s => ?_
  split
  · exact stays_giveUp
  intro s hs
  let Caught (result : Option (Except Fault String)) : System → Prop :=
    On (if result.isSome then I else H)
  have hcaught : Ends (On I) (On H)
      (tryCatch (do return some (← attempt body)) fun _ => pure none)
      { s with runner := { s.runner with inside := true } } Caught := by
    refine Ends.tryCatch (I := fun _ => False) (H := On H) (ends_bind.2 ?_) (fun _ _ => False.elim)
      fun _ ht => ht
    exact Ends.attempt (h _ hs) fun _ _ ht => ht
  simp only [setInside, stick, ends_bind, ends_modify]
  refine hcaught.mono fun result t ht => ?_
  cases result with
  | none => exact stays_giveUp (H := H) _ (steady.rescued ht)
  | some result => exact stays_outcomeFrom (H := H) result _ ht

theorem stays_carryOut (steady : Steady limit I H) {action : Action}
    (hmove : action.type.isMove → Moves I H (context.depth + 1) announce) :
    Stays (On I) (On H) (carryOut announce action context) :=
  .bind (stays_note rfl) fun _ => (stays_execute steady hmove).tryFinally_note
    (fun t ht => stays_note (H := H) rfl t ht) fun t ht => stays_note (H := H) rfl t ht

theorem stays_runActions (steady : Steady limit I H) {actions : List Action}
    (hmove : ∀ action ∈ actions, action.type.isMove → Moves I H (context.depth + 1) announce) :
    Stays (On I) (On H) (runActions announce context actions) := by
  refine .mapM fun action haction => .bind .get fun s => ?_
  have hrun : Stays (On I) (On H) (carryOut announce action context) :=
    stays_carryOut steady (hmove action haction)
  dsimp only
  split
  · exact .pure
  · split
    · exact .bind (.attempt hrun) stays_outcomeOf
    · exact stays_onWorker steady hrun

theorem stays_runRule (steady : Steady limit I H) {rule : Rule} {actions : List Action}
    {item team : String} {event : Event}
    (hmove : ∀ action ∈ actions, action.type.isMove → Moves I H (event.depth + 1) announce) :
    Stays (On I) (On H) (runRule announce rule actions item team event) :=
  .bind (stays_note rfl) fun _ => stays_runActions steady hmove

end Actions

/-! ## Automation -/

theorem stays_arm {rule : Rule} {seconds : Binary64} {event : Event} {item team status : String}
    {version : Int} {replace : Bool} :
    Stays (On I) (On H) (arm rule seconds event item team status version replace) := by
  refine .bind .get fun s => .bind .ofReading fun dueAt => ?_
  dsimp only
  split
  · exact .pure
  · exact .bind (stays_modify fun _ => rfl) fun _ => stays_note rfl

theorem stays_runImmediate (steady : Steady limit I H) {trigger : Trigger} {rule : Rule}
    (hmove : ∀ action ∈ rule.actions, action.type.isMove →
      Moves I H (trigger.event.depth + 1) announce) :
    Stays (On I) (On H) (runImmediate announce trigger rule) :=
  .bind (stays_runRule steady hmove) fun _ => .pure

theorem stays_runRules {rules : RuleBook} {trigger : Trigger} {replace : Bool}
    (himmediate : ∀ rule ∈ rules.immediate trigger.event.type,
      Stays (On I) (On H) (runImmediate announce trigger rule)) :
    Stays (On I) (On H) (runRules announce rules trigger replace) := by
  refine .bind (.forM fun rule _ => ?_) fun _ =>
    .forM fun rule hrule => himmediate rule (List.mem_filter.1 hrule).1
  unfold armRule
  split
  · exact stays_arm
  · exact .pure

/-- The rules of a version are known once they are asked for. -/
theorem ends_ruleBook (steady : Steady limit I H) (hs : I s.core) (team : String) (version : Int) :
    Ends (On I) (On H) (ruleBook team version) s fun book t =>
      I t.core ∧ t.core.rules.get? (team, version) = some book := by
  simp only [ruleBook, ends_bind, ends_get]
  cases hbook : s.automation.rules.get? (team, version) with
  | some book => exact ⟨hs, hbook⟩
  | none =>
    simp only [ends_bind, ends_get, ends_ofExcept, Registry.version]
    cases hw : s.registry.version? team version with
    | none => exact hs
    | some w =>
      simp only [changeAutomation, ends_modify, ends_pure]
      exact ⟨steady.learned hs hw, Table.get?_put_self ..⟩

/-- A move that automation takes in runs the immediate rules of its version. -/
theorem stays_handleMoved (steady : Steady limit I H) {m : Moved}
    (himmediate : ∀ c book, I c → c.rules.get? (m.team, m.workflowVersion) = some book →
      ∀ rule ∈ book.immediate (Event.moved m).type, Stays (On I) (On H)
        (runImmediate announce ⟨.moved m, m.item, m.team, m.target, m.workflowVersion⟩ rule)) :
    Stays (On I) (On H) (handleMoved announce m) := by
  refine .bind .get fun s => .bind (stays_modify fun _ => rfl) fun _ =>
    .bind (stays_forM_note _ (fun _ => rfl) _) fun _ s hs => ?_
  refine ends_bind.2 ((ends_ruleBook steady hs _ _).mono fun book t ht => ?_)
  exact stays_runRules (himmediate t.core book ht.1 ht.2) t ht.1

theorem stays_breakWatches (steady : Steady limit I H) {signal : Signal} {selected : Watch → Bool}
    (hmoves : Moves I H (signal.depth + 1) announce) :
    Stays (On I) (On H) (breakWatches announce signal selected) := by
  refine .bind .get fun s => .bind (stays_modify fun _ => rfl) fun _ =>
    .bind (stays_forM_note _ (fun _ => rfl) _) fun _ => .forM fun broken _ => ?_
  exact .bind (stays_note rfl) fun _ =>
    .bind (stays_runRule steady fun _ _ _ => hmoves) fun _ => .pure

theorem stays_handleSignal (steady : Steady limit I H) {signal : Signal}
    (hmoves : Moves I H (signal.depth + 1) announce) :
    Stays (On I) (On H) (handleSignal announce signal) := by
  unfold handleSignal
  split
  · exact stays_breakWatches steady hmoves
  · rename_i id hid
    refine .bind (.attempt (stays_loadItem steady id)) fun result => ?_
    split
    · exact stays_note rfl
    · refine .bind (stays_breakWatches steady hmoves) fun _ s hs => ?_
      refine ends_bind.2 ((ends_ruleBook steady hs _ _).mono fun book t ht => ?_)
      refine stays_runRules (fun rule _ => ?_) t ht.1
      exact stays_runImmediate steady fun _ _ _ => hmoves

/-- Beyond the limit an event is only noted. -/
theorem stays_unlessDeep (steady : Steady limit I H) {event : Event}
    (h : event.depth ≤ limit → Stays (On I) (On H) (match event with
      | .moved m => handleMoved announce m
      | .signal s => handleSignal announce s)) :
    Stays (On I) (On H) (handleEvent announce event) := by
  refine .get_bind fun s hs => ?_
  dsimp only
  split
  · exact stays_note rfl s hs
  · rename_i hdepth
    have hlimit : s.settings.maxCascadeDepth = limit := steady.limited hs
    exact Stays.bind (stays_note rfl) (fun _ => h (by omega)) s hs

/-- What an event causes is one level deeper; beyond the limit it causes nothing. -/
theorem stays_handleEvent (steady : Steady limit I H) {event : Event}
    (hmoves : event.depth ≤ limit → Moves I H (event.depth + 1) announce) :
    Stays (On I) (On H) (handleEvent announce event) := by
  refine stays_unlessDeep steady fun hdepth => ?_
  have hmoves := hmoves hdepth
  cases event with
  | moved m =>
    exact stays_handleMoved steady fun _ _ _ _ rule _ =>
      stays_runImmediate steady fun _ _ _ => hmoves
  | signal signal => exact stays_handleSignal steady hmoves

theorem stays_ingest (steady : Steady limit I H) {signal : Signal}
    (hmoves : signal.depth ≤ limit → Moves I H (signal.depth + 1) announce) :
    Stays (On I) (On H) (ingest announce signal) := by
  unfold ingest
  split
  · exact stays_note rfl
  · exact .bind .get fun s => stays_handleEvent steady hmoves

/-! ## Metrics -/

theorem stays_deliverAlert (steady : Steady limit I H) {alert : Signal}
    (hmoves : alert.depth ≤ limit → Moves I H (alert.depth + 1) announce) :
    Stays (On I) (On H) (deliverAlert announce alert) := by
  have hpass (sink : AlertSink) : Stays (On I) (On H) (passAlert announce alert sink) := by
    cases sink with
    | automation =>
      refine .bind (.attempt (stays_ingest steady hmoves)) fun result => ?_
      cases result with
      | ok _ => exact .pure
      | error _ => exact stays_note rfl
    | failing => exact stays_note rfl
    | recording | none => exact .pure
  refine .bind .get fun s => ?_
  dsimp only
  split
  · exact .bind (stays_modify fun _ => rfl) fun _ => hpass s.sink
  · exact hpass s.sink

theorem stays_checkThresholds (steady : Steady limit I H) {now : Option Instant}
    {items : List String} {depth : Int}
    (hmoves : depth ≤ limit → Moves I H (depth + 1) announce) :
    Stays (On I) (On H) (checkThresholds announce now items depth) := by
  refine .get_bind fun s hs => ?_
  dsimp only
  rw [ends_bind, ends_modify]
  refine Stays.ofExcept_bind (fun alerts hfound => .bind (.forM fun alert halert => ?_)
    fun _ => .pure) _ ?_
  · obtain ⟨-, rfl, -⟩ := mem_alerts hfound halert
    exact stays_deliverAlert steady hmoves
  · refine (congrArg I ?_).mpr hs
    simp [System.core, System.saves, System.delivered, tracks_alerts]

/-- What a move is measured to comes first, and then the limits of its item are checked. -/
theorem ends_measure (steady : Steady limit I H) {m : Moved}
    (hmoves : m.depth ≤ limit → Moves I H (m.depth + 1) announce)
    (measured : ∀ terminal,
      I { s.core with tracks := (s.metrics.record m terminal).1.tracks }) :
    Ends (On I) (On H) (measure announce m) s fun _ => On I := by
  simp only [measure, measureWith, ends_bind, ends_get, ends_set]
  have hset := measured (isTerminalStage s.registry m.team m.workflowVersion m.targetStage)
  split
  · exact Stays.bind (stays_checkThresholds steady hmoves) (fun _ => .pure) _ hset
  · exact hset

/-! ## Delivery -/

theorem ends_deliverSafely {J : Core → Prop} {event : Event} (subscriber : Subscriber)
    (h : ∀ t, t.core = s.core.deliver subscriber event →
      Ends (On J) (On H) (deliver announce event subscriber) t fun _ => On J) :
    Ends (On I) (On H) (deliverSafely announce event subscriber) s fun _ => On J := by
  simp only [deliverSafely, ends_bind, ends_note]
  have h := h { s with journal := .delivered subscriber event :: s.journal } rfl
  refine (h.attempt (Q := fun _ => On J) fun _ _ ht => ht).mono fun result t ht => ?_
  split
  · exact ht
  · exact (stays_note (I := J) (H := H) rfl t ht)

theorem stays_deliverSignal (steady : Steady limit I H) {signal : Signal} {subscriber : Subscriber}
    (hmoves : signal.depth ≤ limit → Moves I H (signal.depth + 1) announce) :
    Stays (On I) (On H) (deliver announce (.signal signal) subscriber) := by
  cases subscriber with
  | automation => exact stays_handleEvent steady hmoves
  | metrics => exact .pure
  | recorder => exact stays_modify fun _ => rfl
  | failing name => exact .raise

/-! ## The evaluator -/

theorem stays_fire (steady : Steady limit I H) {watch : Watch} {rule : Rule}
    (hmoves : Moves I H (watch.trigger.depth + 1) announce) :
    Stays (On I) (On H) (fire announce watch rule) :=
  (stays_runRule steady fun _ _ _ => hmoves).tryFinally_note
    (fun t ht => stays_note (H := H) rfl t ht) fun t ht => stays_note (H := H) rfl t ht

theorem stays_tick (steady : Steady limit I H) {time : Option Instant}
    (hmoves : ∀ depth, Moves I H depth announce) : Stays (On I) (On H) (tick announce time) := by
  refine .bind .get fun s => .ite .raise <| .bind (stays_modify fun _ => rfl) fun _ =>
    .bind (stays_note rfl) fun _ => .bind (.filterMapM fun watch _ => ?_) fun _ =>
      .bind .get fun s => .bind (.forM fun hook _ => ?_) fun _ => .pure
  · refine .bind (.attempt (stays_loadItem steady watch.item)) fun result => ?_
    split
    · exact .bind (stays_note rfl) fun _ => .pure
    · split
      · exact .pure
      · refine .bind .get fun s => ?_
        split
        · exact .bind (stays_note rfl) fun _ => .pure
        · exact .bind (stays_note rfl) fun _ => .bind (stays_fire steady (hmoves _)) fun _ => .pure
  · cases hook with
    | thresholds =>
      refine .bind (.attempt (stays_checkThresholds steady fun _ => hmoves _)) fun result => ?_
      cases result with
      | ok _ => exact .pure
      | error _ => exact stays_note rfl
    | failing => exact stays_note rfl
    | notifying => exact stays_modify fun _ => rfl

end Run

end Stageflow
