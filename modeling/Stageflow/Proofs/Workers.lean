import Stageflow.Proofs.Refusals
import Stageflow.System.Session

/-!
# Nothing hangs outside of the workers

A collaborator that never answers stops the action that calls it, and with it the worker that the
action runs on. Whoever asked for the action goes on without it. So whatever is asked for from
outside comes to an end, and leaves no action running.
-/

namespace Stageflow

open Run

variable {α β : Type} {announce : Event → Run Unit}

namespace System

/-- Whether no action is running. -/
def IsIdle (s : System) : Prop := s.runner.inside = false

end System

namespace Run

/-- Whether a computation that is run while no action is running comes to an end, and leaves none
running. -/
abbrev Returns (action : Run α) : Prop := Stays System.IsIdle (fun _ => False) action

/-- A change of anything but the runner. -/
theorem returns_modify {change : System → System} (h : ∀ s, (change s).runner = s.runner) :
    Returns (modify change : Run PUnit) :=
  .modify fun s hs => by rwa [System.IsIdle, h s]

theorem returns_note (notice : Notice) : Returns (note notice) := returns_modify fun _ => rfl

/-! ## Items -/

/-- Whether a property reads nothing of the items, of who holds them and of the remarks on them. -/
structure Overlooks (I : System → Prop) : Prop where
  silent : ∀ {s t : System}, t = { s with items := t.items, held := t.held, rival := t.rival } →
    I s → I t
  remarks : ∀ {s t : System} {notice : Notice}, notice.isRemark →
    t = { s with items := t.items, rival := t.rival, journal := notice :: s.journal } → I s → I t

namespace Overlooks

variable {I H : System → Prop}

theorem loadItem (h : Overlooks I) (id : String) : Stays I H (loadItem id) := by
  refine .get_bind fun s hs => ?_
  simp only [ends_bind, ends_ofExcept]
  split
  · rename_i item _
    have hsaved : (Notice.saved { item with version := item.version + 1 }).isRemark := rfl
    unfold overtake
    split
    · exact h.remarks hsaved rfl hs
    · exact hs
  · exact hs

theorem writeItem (h : Overlooks I) (item : Item) (expected : Int) :
    Stays I H (writeItem item expected) := by
  refine .get_bind fun s hs => ?_
  split
  · rename_i stored _ _
    have hsaved : (Notice.saved stored).isRemark := rfl
    exact h.remarks (s := s) hsaved rfl hs
  · exact hs
  · exact hs

theorem underLock (h : Overlooks I) {id : String} {action : Run α} (ha : Stays I H action) :
    Stays I H (underLock id action) := by
  have hacquire : Stays I H (acquire id) := by
    refine .get_bind fun s hs => ?_
    split
    · exact hs
    · split
      · exact hs
      · exact h.silent rfl hs
  exact .bind hacquire fun _ => .bind (.attempt ha) fun _ =>
    .bind (.modify fun _ => h.silent rfl) fun _ => .ofExcept

theorem workflowOf (item : Item) : Stays I H (workflowOf item) := .bind .get fun _ => .ofExcept

theorem signOff (h : Overlooks I) (id stage role : String) (approver : Json) :
    Stays I H (signOff id stage role approver) := by
  refine h.underLock (.bind (h.loadItem id) fun item => .bind (workflowOf item) fun _ =>
    .bind .get fun _ => .bind .ofExcept fun signed => ?_)
  split
  · exact .bind (h.writeItem _ _) fun _ => .pure
  · exact .pure

theorem setCriterion (h : Overlooks I) (id criterion : String) (satisfied : Json) :
    Stays I H (setCriterion id criterion satisfied) := by
  refine h.underLock (.bind (h.loadItem id) fun item => .bind .get fun _ => ?_)
  split
  · exact h.writeItem _ _
  · exact .pure

theorem migrate (h : Overlooks I) (id : String) (version : Option Int) :
    Stays I H (migrate id version) := by
  refine h.underLock (.bind (h.loadItem id) fun item => .bind .get fun _ =>
    .bind .ofExcept fun w => .bind .get fun _ => .bind .ofExcept fun rebound => ?_)
  split
  · exact .pure
  · dsimp only
    split
    · rename_i level _ _
      have hcleared : (Notice.levelCleared id level w.version).isRemark := rfl
      exact .bind (.modify fun _ => h.remarks hcleared rfl) fun _ => h.writeItem _ _
    · exact h.writeItem _ _

end Overlooks

theorem overlooks_isIdle : Overlooks System.IsIdle where
  silent h hs := by rw [h]; exact hs
  remarks _ h hs := by rw [h]; exact hs

theorem returns_loadItem (id : String) : Returns (loadItem id) := overlooks_isIdle.loadItem id

theorem returns_moveItem (ha : ∀ event, Returns (announce event)) (id : String) (target : Json)
    (actor : Actor) : Returns (moveItem announce id target actor) := by
  have hcommit : Returns (commitMove id target actor) :=
    .bind (returns_loadItem id) fun item => .bind (Overlooks.workflowOf item) fun _ =>
      .bind .ofExcept fun _ => .bind .get fun _ => .bind (overlooks_isIdle.writeItem _ _) fun _ =>
        .bind (returns_note _) fun _ => .pure
  exact .bind (overlooks_isIdle.underLock hcommit) fun _ => .bind (ha _) fun _ => .pure

theorem returns_createItem (ha : ∀ event, Returns (announce event)) (request : NewItem) :
    Returns (createItem announce request) := by
  have hnew : Returns newId := .get_bind fun s hs => hs
  have hlevel (w : Workflow) : Returns (levelFor w request) := by
    unfold levelFor
    split
    · split
      · exact .raise
      · exact .pure
    · exact .pure
    · exact .bind .ofReading fun _ => .pure
  have hid : Returns (idFor request.id) := by
    unfold idFor
    split
    · split
      · exact hnew
      · exact .pure
    · exact hnew
  exact .bind .get fun _ => .bind .ofExcept fun w => .bind (hlevel w) fun _ => .bind .get fun _ =>
    .bind .ofExcept fun _ => .bind hid fun _ => .bind .get fun _ => .bind .ofExcept fun _ =>
      .bind (returns_modify fun _ => rfl) fun _ => .bind (returns_note _) fun _ =>
        .bind (ha _) fun _ => .pure

theorem returns_choicesOf (id : String) : Returns (choicesOf id) :=
  .bind (returns_loadItem id) fun item => .bind (Overlooks.workflowOf item) fun _ => .ofExcept

theorem returns_gateOf (id : String) (stage : Option String) : Returns (gateOf id stage) := by
  refine .bind (returns_loadItem id) fun item => .bind (Overlooks.workflowOf item) fun _ => ?_
  split
  · exact .pure
  · exact .bind .ofExcept fun _ => .pure

/-! ## Actions -/

theorem returns_timedOut (action : ActionType) (rule : String) : Returns (timedOut action rule) :=
  .bind .get fun _ => .bind (returns_note _) fun _ => .pure

theorem returns_failed (action : ActionType) (rule : String) (fault : Fault) :
    Returns (failed action rule fault) := by
  unfold failed
  split
  · exact .bind (returns_note _) fun _ => .pure
  · exact .pure

theorem returns_giveUp (action : ActionType) (rule : String) : Returns (giveUp action rule) := by
  refine .bind .get fun s => ?_
  split
  · exact returns_failed _ _ _
  · exact returns_timedOut _ _

theorem returns_outcomeFrom (action : ActionType) (rule : String) (result : Except Fault String) :
    Returns (outcomeFrom action rule result) := by
  refine .bind .get fun s => ?_
  split
  · exact returns_failed _ _ _
  · cases result with
    | ok _ => exact .pure
    | error fault => exact returns_failed _ _ fault

/-- Whatever becomes of an action on its worker, it is given up. -/
theorem returns_onWorker (action : ActionType) (rule : String) (body : Run String) :
    Returns (onWorker action rule body) := by
  refine .get_bind fun s hs => ?_
  split
  · exact returns_giveUp action rule s hs
  have hcaught : Ends System.IsIdle (fun _ => False)
      (tryCatch (do return some (← attempt body)) fun _ => pure none)
      { s with runner := { s.runner with inside := true } } fun _ _ => True := by
    refine Ends.tryCatch (I := fun _ => True) (H := fun _ => True) ?_ (fun _ _ _ => trivial)
      fun _ _ => trivial
    exact ends_bind.2 ((ends_anyhow (attempt body) _).mono fun _ _ _ => trivial)
  simp only [setInside, stick, ends_bind, ends_modify]
  refine hcaught.mono fun result t _ => ?_
  cases result with
  | none => exact returns_giveUp action rule _ rfl
  | some result => exact returns_outcomeFrom action rule result _ rfl

/-- Where no action is running, every action is run on a worker. -/
theorem returns_runActions (context : ActionContext) (actions : List Action) :
    Returns (runActions announce context actions) := by
  refine .mapM fun action _ => .get_bind fun s hs => ?_
  have hs' : s.runner.inside = false := hs
  dsimp only
  split
  · exact hs
  · rw [hs']
    exact returns_onWorker _ _ _ s hs

theorem returns_runRule (rule : Rule) (actions : List Action) (item team : String)
    (event : Event) : Returns (runRule announce rule actions item team event) :=
  .bind (returns_note _) fun _ => returns_runActions _ _

/-! ## Cascades -/

theorem returns_ruleBook (team : String) (version : Int) : Returns (ruleBook team version) := by
  refine .bind .get fun s => ?_
  split
  · exact .pure
  · exact .bind .get fun _ => .bind .ofExcept fun _ =>
      .bind (returns_modify fun _ => rfl) fun _ => .pure

theorem returns_runRules (rules : RuleBook) (trigger : Trigger) (replace : Bool) :
    Returns (runRules announce rules trigger replace) := by
  refine .bind (.forM fun rule _ => ?_) fun _ => .forM fun rule _ =>
    .bind (returns_runRule _ _ _ _ _) fun _ => .pure
  unfold armRule
  split
  · refine .bind .get fun s => .bind .ofReading fun _ => ?_
    dsimp only
    split
    · exact .pure
    · exact .bind (returns_modify fun _ => rfl) fun _ => returns_note _
  · exact .pure

theorem returns_handleMoved (m : Moved) : Returns (handleMoved announce m) :=
  .bind .get fun _ => .bind (returns_modify fun _ => rfl) fun _ =>
    .bind (.forM fun _ _ => returns_note _) fun _ => .bind (returns_ruleBook _ _) fun rules =>
      returns_runRules rules _ _

theorem returns_breakWatches (signal : Signal) (selected : Watch → Bool) :
    Returns (breakWatches announce signal selected) :=
  .bind .get fun _ => .bind (returns_modify fun _ => rfl) fun _ =>
    .bind (.forM fun _ _ => returns_note _) fun _ => .forM fun _ _ =>
      .bind (returns_note _) fun _ => .bind (returns_runRule _ _ _ _ _) fun _ => .pure

theorem returns_handleSignal (signal : Signal) : Returns (handleSignal announce signal) := by
  unfold handleSignal
  split
  · exact returns_breakWatches _ _
  · refine .bind (.attempt (returns_loadItem _)) fun result => ?_
    split
    · exact returns_note _
    · exact .bind (returns_breakWatches _ _) fun _ => .bind (returns_ruleBook _ _) fun rules =>
        returns_runRules rules _ _

theorem returns_handleEvent (event : Event) : Returns (handleEvent announce event) := by
  refine .bind .get fun s => ?_
  dsimp only
  split
  · exact returns_note _
  · refine .bind (returns_note _) fun _ => ?_
    cases event with
    | moved m => exact returns_handleMoved m
    | signal signal => exact returns_handleSignal signal

theorem returns_ingest (signal : Signal) : Returns (ingest announce signal) := by
  unfold ingest
  split
  · exact returns_note _
  · exact .bind .get fun _ => returns_handleEvent _

theorem returns_deliverAlert (alert : Signal) : Returns (deliverAlert announce alert) := by
  have hpass (sink : AlertSink) : Returns (passAlert announce alert sink) := by
    cases sink with
    | automation =>
      refine .bind (.attempt (returns_ingest alert)) fun result => ?_
      cases result with
      | ok _ => exact .pure
      | error _ => exact returns_note _
    | failing => exact returns_note _
    | recording | none => exact .pure
  refine .bind .get fun s => ?_
  dsimp only
  split
  · exact .bind (returns_modify fun _ => rfl) fun _ => hpass _
  · exact hpass _

theorem returns_checkThresholds (now : Option Instant) (items : List String) (depth : Int) :
    Returns (checkThresholds announce now items depth) :=
  .bind .get fun _ => .bind (returns_modify fun _ => rfl) fun _ => .bind .ofExcept fun _ =>
    .bind (.forM fun alert _ => returns_deliverAlert alert) fun _ => .pure

theorem returns_measure (m : Moved) : Returns (measure announce m) := by
  refine .get_bind fun s hs => ?_
  simp only [ends_bind, ends_set]
  split
  · exact Stays.bind (returns_checkThresholds _ _ _) (fun _ => .pure) _ hs
  · exact hs

theorem returns_deliver (event : Event) (subscriber : Subscriber) :
    Returns (deliver announce event subscriber) := by
  cases subscriber with
  | automation => exact returns_handleEvent event
  | metrics =>
    cases event with
    | moved m => exact returns_measure m
    | signal signal => exact .pure
  | recorder => exact returns_modify fun _ => rfl
  | failing name => exact .raise

theorem returns_publishWith (event : Event) : Returns (publishWith announce event) := by
  refine stays_publishWith_of_handOver (.bind .get fun s => ?_)
  dsimp only
  split
  · refine .forM fun subscriber _ => .bind (returns_note _) fun _ =>
      .bind (.attempt (returns_deliver event subscriber)) fun result => ?_
    cases result with
    | ok _ => exact .pure
    | error _ => exact returns_note _
  · exact .pure

theorem returns_cascade (n : Nat) (event : Event) : Returns (cascade n event) := by
  cases n with
  | zero => exact .pure
  | succ n => exact returns_publishWith event

theorem returns_publish (event : Event) : Returns (publish event) :=
  .bind .get fun _ => returns_cascade _ event

/-! ## The evaluator -/

theorem returns_promote (now : Instant) (watch : Watch) :
    Returns (promote announce now watch) := by
  refine .bind (.attempt (returns_loadItem _)) fun result => ?_
  split
  · exact .bind (returns_note _) fun _ => .pure
  · split
    · exact .pure
    · refine .bind .get fun s => ?_
      split
      · exact .bind (returns_note _) fun _ => .pure
      · exact .bind (returns_note _) fun _ =>
          .bind ((returns_runRule _ _ _ _ _).tryFinally_note (fun _ ht => ht) fun _ => id)
            fun _ => .pure

theorem returns_runHook (now : Instant) (hook : TickHook) :
    Returns (runHook announce now hook) := by
  cases hook with
  | thresholds =>
    refine .bind (.attempt (returns_checkThresholds _ _ _)) fun result => ?_
    cases result with
    | ok _ => exact .pure
    | error _ => exact returns_note _
  | failing => exact returns_note _
  | notifying => exact returns_modify fun _ => rfl

theorem returns_tick (time : Option Instant) : Returns (tick announce time) :=
  .bind .get fun _ => .ite .raise <| .bind (returns_modify fun _ => rfl) fun _ =>
    .bind (returns_note _) fun _ => .bind (.filterMapM fun _ _ => returns_promote _ _) fun _ =>
      .bind .get fun _ => .bind (.forM fun _ _ => returns_runHook _ _) fun _ => .pure

/-! ## Documents -/

theorem runner_edit (change : Source → Source) (s : System) :
    (s.edit change).runner = s.runner := by
  unfold System.edit
  split <;> rfl

theorem returns_storeDocument (document : TeamDocument) (version : Int) :
    Returns (storeDocument document version) :=
  returns_modify fun s => runner_edit _ s

theorem returns_activate (team : String) : Returns (activate team) := by
  refine .bind (.bind .get fun s => ?_) fun merged => .bind .get fun _ => .bind ?_ fun w =>
    .bind (returns_modify fun _ => rfl) fun _ => .pure
  · split
    · exact .raise
    · refine .bind .get fun _ => ?_
      split
      · exact .pure
      · exact .bind (returns_note _) fun _ => .raise
      · exact .raise
  · unfold compile
    split
    · exact .bind (.forM fun _ _ => returns_note _) fun _ => .pure
    · exact .bind (returns_note _) fun _ => .raise
    · exact .raise

theorem returns_activateTeams (teams : List String) : Returns (activateTeams teams) := by
  induction teams with
  | nil => exact .pure
  | cons team rest ih =>
    refine .bind (.attempt (returns_activate team)) fun result => ?_
    split
    · exact .bind ih fun _ => .pure
    · split
      · exact .bind (returns_note _) fun _ => .bind ih fun _ => .pure
      · exact .raise

end Run

/-! ## Operations -/

theorem Operation.returns_perform (op : Operation) : Returns op.perform := by
  cases op with
  | create request => exact .bind (returns_createItem returns_publish request) fun _ => .pure
  | move item target actor =>
    exact .bind (returns_moveItem returns_publish item target actor) fun _ => .pure
  | signOff item stage role approver =>
    exact .bind (overlooks_isIdle.signOff _ _ _ _) fun _ => .pure
  | setCriterion item criterion satisfied =>
    exact .bind (overlooks_isIdle.setCriterion _ _ _) fun _ => .pure
  | migrate item version => exact .bind (overlooks_isIdle.migrate _ _) fun _ => .pure
  | choices item => exact .bind (returns_choicesOf _) fun _ => .pure
  | gate item stage => exact .bind (returns_gateOf _ _) fun _ => .pure
  | ingest signal => exact returns_ingest signal
  | deliver event subscriber => exact returns_deliver event subscriber
  | publish event => exact returns_publish event
  | tick time => exact .bind (returns_tick time) fun _ => .pure
  | disarm item rule =>
    exact .bind (.bind .get fun _ => .bind (returns_modify fun _ => rfl) fun _ =>
      .bind (.forM fun _ _ => returns_note _) fun _ => .pure) fun _ => .pure
  | act context actions => exact .bind (returns_runActions _ _) fun _ => .pure
  | checkThresholds time items depth =>
    exact .bind (returns_checkThresholds _ _ _) fun _ => .pure
  | advance seconds =>
    exact .bind (.bind .get fun _ => .bind .ofReading fun _ =>
      .bind (returns_modify fun _ => rfl) fun _ => .pure) fun _ => .pure
  | putDocument raw =>
    exact .bind (.bind .ofReading fun _ => .bind .get fun _ =>
      .bind (returns_storeDocument _ _) fun _ => .pure) fun _ => .pure
  | saveDocument raw expected =>
    refine .bind (.bind .ofReading fun _ => .bind .get fun _ => ?_) fun _ => .pure
    dsimp only
    split
    · exact .raise
    · exact .bind (returns_storeDocument _ _) fun _ => .pure
  | putFragment name fragment => exact returns_modify fun s => runner_edit _ s
  | activate team => exact .bind (returns_activate team) fun _ => .pure
  | activateAll => exact .bind (.bind .get fun _ => returns_activateTeams _) fun _ => .pure
  | check team =>
    refine .bind (.bind .get fun s => .bind ?_ fun _ => .ofReading) fun _ => .pure
    unfold Source.checkNotice?
    split
    · exact .pure
    · split
      · exact returns_note _
      · exact .pure
  | startEvaluator =>
    refine .bind .get fun s => ?_
    split
    · exact returns_note _
    · exact returns_modify fun _ => rfl
  | stopEvaluator => exact returns_modify fun _ => rfl

/-- Whatever a session asks for, no action is running behind it. -/
theorem idle_through {s : System} (idle : s.IsIdle) (ops : List Operation) :
    (s.through ops).IsIdle := by
  induction ops generalizing s with
  | nil => exact idle
  | cons op ops ih => exact ih ((op.returns_perform s idle).after fun _ => False.elim)

namespace Run

/-- A computation that returns does not hang, so what stays unless it hangs does stay. -/
theorem Stays.after_of_returns {I H : System → Prop} {action : Run α} {s : System}
    (h : Stays I H action) (returns : Returns action) (idle : s.IsIdle) (hs : I s) :
    I (action.after s) := by
  have hends := h s hs
  have hreturns := returns s idle
  unfold Ends at hends hreturns
  unfold Run.after
  split <;> rename_i hrun <;> rw [hrun] at hends hreturns
  · exact hends
  · rename_i halt _
    cases halt with
    | raised fault => exact hends
    | hung => exact hreturns.elim

end Run

end Stageflow
