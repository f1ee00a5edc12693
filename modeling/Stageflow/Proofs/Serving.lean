import Stageflow.Proofs.Core.Session
import Stageflow.Proofs.RuleBooks
import Stageflow.Proofs.Workers

/-!
# Serving the rules that a move triggers

Automation takes in a move in two rounds: first it arms the triggered rules that wait, and then it
runs the others. Running fails for no rule, because whatever becomes of an action is its outcome.
Arming fails for a rule that is due at no time there is, and then nothing behind that rule is armed
and no rule is run.

## Main statements

* `move_serves_rules` — if every rule that waits is due at some time, all triggered rules are
  served.
* `undatable_silences` — a rule that is due at no time silences the others.
-/

namespace Stageflow

/-! ## Arming -/

/-- The instant that is the duration of a deferred rule later, if there is such an instant. -/
def Rule.dueAt? (rule : Rule) (armedAt : Instant) : Option Instant :=
  rule.duration.bind fun seconds => (Span.ofSeconds seconds >>= armedAt.add).toOption

/-- The watch that a move arms for a rule. -/
def Moved.watch (m : Moved) (rule : Rule) (due : Instant) : Watch where
  item := m.item
  team := m.team
  rule := rule.id
  workflowVersion := m.workflowVersion
  status := m.target
  armedAt := m.time
  dueAt := due
  trigger := .moved m

/-- What a move triggers rules with. -/
def Moved.trigger (m : Moved) : Run.Trigger :=
  ⟨.moved m, m.item, m.team, m.target, m.workflowVersion⟩

namespace System

/-- Whether a system has become another one with no more done than that watches were armed or ended,
rule books were opened, and notes were made. -/
def Tends (s t : System) : Prop :=
  t = { s with
    automation := { s.automation with
      watches := t.automation.watches, rules := t.automation.rules }
    journal := t.journal }

theorem Tends.trans {s t u : System} (h : s.Tends t) (hu : t.Tends u) : s.Tends u := by
  unfold Tends at h hu ⊢
  rw [hu, h]

/-- A system after a watch is armed. -/
def arm (s : System) (watch : Watch) : System :=
  { s with
    automation := { s.automation with watches := s.automation.watches.put watch.key watch }
    journal := .armed watch :: s.journal }

theorem tends_arm (s : System) (watch : Watch) : s.Tends (s.arm watch) := rfl

/-- Whether the watch of a rule stands as a move arms it, due as much later than the move as the
rule's duration says. -/
def HasArmed (s : System) (m : Moved) (rule : Rule) : Prop :=
  ∃ due, rule.dueAt? m.time = some due ∧
    s.automation.watches.get? (m.item, rule.id) = some (m.watch rule due)

end System

namespace Run

variable {m : Moved} {rule : Rule} {rules : List Rule}

/-- A deferred rule that is due at some time is armed, in place of the watch that it may have. -/
theorem armRule_apply {due : Instant} (h : rule.dueAt? m.time = some due) (s : System) :
    armRule m.trigger true rule s = .ok () (s.arm (m.watch rule due)) := by
  obtain ⟨seconds, hduration, hdue⟩ := Option.bind_eq_some_iff.1 h
  rw [toOption_eq_some] at hdue
  unfold armRule
  rw [hduration]
  simp only [arm, Moved.trigger, Event.time?, Option.getD_some, hdue, Watches.arm, Bool.not_true,
    Bool.and_false, Bool.false_eq_true, if_false]
  rfl

/-- A deferred rule that is due at no time raises. -/
theorem armRule_raises (deferred : rule.deferred) (never : rule.dueAt? m.time = none) (s : System) :
    ∃ d, armRule m.trigger true rule s = .error (.raised (.defect d)) s := by
  obtain ⟨seconds, hduration⟩ := Option.isSome_iff_exists.1 deferred
  simp only [Rule.dueAt?, hduration, Option.bind_some] at never
  cases hdue : Span.ofSeconds seconds >>= m.time.add with
  | ok due => simp [hdue, Except.toOption] at never
  | error d =>
    refine ⟨d, ?_⟩
    unfold armRule
    rw [hduration]
    simp only [arm, Moved.trigger, Event.time?, Option.getD_some, hdue]
    rfl

/-- Rules of different ids that are all due at some time are all armed. A later one leaves the watch
of an earlier one alone. -/
theorem armRules_apply (distinct : (rules.map (·.id)).Nodup)
    (datable : ∀ rule ∈ rules, (rule.dueAt? m.time).isSome) (s : System) :
    ∃ t, rules.forM (armRule m.trigger true) s = .ok () t ∧ s.Tends t ∧
      (∀ rule ∈ rules, t.HasArmed m rule) ∧
      ∀ key, key.2 ∉ rules.map (·.id) →
        t.automation.watches.get? key = s.automation.watches.get? key := by
  induction rules generalizing s with
  | nil => exact ⟨s, rfl, rfl, by simp, fun _ _ => rfl⟩
  | cons rule rest ih =>
    obtain ⟨hfresh, hrest⟩ := List.nodup_cons.1 distinct
    obtain ⟨hrule, hdatable⟩ := List.forall_mem_cons.1 datable
    obtain ⟨due, hdue⟩ := Option.isSome_iff_exists.1 hrule
    obtain ⟨t, hrun, htends, harmed, hothers⟩ := ih hrest hdatable (s.arm (m.watch rule due))
    have hkept := hothers (m.item, rule.id) hfresh
    refine ⟨t, ?_, (s.tends_arm _).trans htends,
      List.forall_mem_cons.2 ⟨⟨due, hdue, hkept.trans (Table.get?_put_self ..)⟩, harmed⟩,
      fun key hkey => ?_⟩
    · rw [forM_cons_apply, armRule_apply hdue]
      exact hrun
    · simp only [List.map_cons, List.mem_cons, not_or] at hkey
      have hne : key ≠ (m.item, rule.id) := fun heq => hkey.1 (congrArg Prod.snd heq)
      exact (hothers key hkey.2).trans (Table.get?_put_of_ne hne ..)

/-- Deferred rules one of which is due at no time are armed up to that one. -/
theorem armRules_raises (deferred : ∀ rule ∈ rules, rule.deferred)
    (undatable : ∃ rule ∈ rules, rule.dueAt? m.time = none) (s : System) :
    ∃ d t, rules.forM (armRule m.trigger true) s = .error (.raised (.defect d)) t ∧ s.Tends t := by
  induction rules generalizing s with
  | nil => simp at undatable
  | cons rule rest ih =>
    obtain ⟨hrule, hdeferred⟩ := List.forall_mem_cons.1 deferred
    rw [forM_cons_apply]
    cases hdue : rule.dueAt? m.time with
    | none =>
      obtain ⟨d, hraised⟩ := armRule_raises hrule hdue s
      rw [hraised]
      exact ⟨d, s, rfl, rfl⟩
    | some due =>
      have hrest : ∃ other ∈ rest, other.dueAt? m.time = none := by simpa [hdue] using undatable
      obtain ⟨d, t, hrun, htends⟩ := ih hdeferred hrest (s.arm (m.watch rule due))
      rw [armRule_apply hdue]
      exact ⟨d, t, hrun, (s.tends_arm _).trans htends⟩

end Run

/-! ## Running -/

namespace Run

variable {announce : Event → Run Unit}

/-- Whether a computation raises nothing, and gives the outcome of an action of a type. -/
def Reports (action : ActionType) (run : Run Outcome) : Prop :=
  ∀ s, Ends (fun _ => False) (fun _ => True) run s fun outcome _ => outcome.action = action

theorem reports_failed (action : ActionType) (rule : String) (fault : Fault) :
    Reports action (failed action rule fault) := by
  intro s
  unfold failed
  split <;> rfl

theorem reports_timedOut (action : ActionType) (rule : String) :
    Reports action (timedOut action rule) := fun _ => rfl

theorem reports_giveUp (action : ActionType) (rule : String) :
    Reports action (giveUp action rule) := by
  intro s
  simp only [giveUp, ends_bind, ends_get]
  split
  · exact reports_failed action rule _ s
  · exact reports_timedOut action rule s

theorem reports_outcomeOf (action : ActionType) (rule : String) :
    ∀ result, Reports action (outcomeOf action rule result)
  | .ok _ => fun _ => rfl
  | .error fault => reports_failed action rule fault

theorem reports_outcomeFrom (action : ActionType) (rule : String)
    (result : Except Fault String) : Reports action (outcomeFrom action rule result) := by
  intro s
  simp only [outcomeFrom, ends_bind, ends_get]
  split
  · exact reports_failed action rule _ s
  · exact reports_outcomeOf action rule result s

/-- Whatever becomes of an action on its worker is its outcome. -/
theorem reports_onWorker (action : ActionType) (rule : String) (body : Run String) :
    Reports action (onWorker action rule body) := by
  intro s
  simp only [onWorker, ends_bind, ends_get]
  split
  · exact reports_giveUp action rule s
  have hcaught (t : System) : Ends (fun _ => False) (fun _ => True)
      (tryCatch (do return some (← attempt body)) fun _ => pure none) t fun _ _ => True :=
    Ends.tryCatch (ends_anyhow _ t) (fun _ _ _ => trivial) fun _ _ => trivial
  simp only [setInside, stick, ends_bind, ends_modify]
  refine (hcaught _).mono fun result t _ => ?_
  cases result with
  | none => exact reports_giveUp action rule _
  | some result => exact reports_outcomeFrom action rule result _

theorem reports_runAction (context : ActionContext) (action : Action) :
    Reports action.type (runAction announce context action) := by
  intro s
  simp only [runAction, ends_bind, ends_get]
  split
  · rfl
  · split
    · simp only [ends_bind]
      exact (neverFails_attempt (carryOut announce action context) s).mono fun result t _ =>
        reports_outcomeOf action.type context.rule result t
    · exact reports_onWorker action.type context.rule _ s

/-- Actions that are run have one outcome each. -/
theorem ends_runActions (context : ActionContext) (actions : List Action) (s : System) :
    Ends (fun _ => False) (fun _ => True) (runActions announce context actions) s fun outcomes _ =>
      outcomes.map (·.action) = actions.map (·.type) := by
  induction actions generalizing s with
  | nil => rfl
  | cons action rest ih =>
    simp only [runActions, List.mapM_cons, ends_bind, ends_pure] at ih ⊢
    refine (reports_runAction context action s).mono fun outcome t houtcome => ?_
    refine (ih t).mono fun outcomes u houtcomes => ?_
    rw [List.map_cons, List.map_cons, houtcome, houtcomes]

theorem ends_runRule (rule : Rule) (actions : List Action) (item team : String) (event : Event)
    (s : System) :
    Ends (fun _ => False) (fun _ => True) (runRule announce rule actions item team event) s
      fun outcomes _ => outcomes.map (·.action) = actions.map (·.type) := by
  simp only [runRule, ends_bind, ends_note]
  exact ends_runActions _ actions _

/-- Immediate rules are served from one state to another: one after another, each has its actions
run once, with one outcome each, and nothing else is done. -/
inductive Serves (announce : Event → Run Unit) (trigger : Trigger) :
    List Rule → System → System → Prop
  | done (s : System) : Serves announce trigger [] s s
  | next {rule : Rule} {rest : List Rule} {s t u : System} {outcomes : List Outcome}
      (ran : runRule announce rule rule.actions trigger.item trigger.team trigger.event s =
        .ok outcomes t)
      (complete : outcomes.map (·.action) = rule.actions.map (·.type))
      (later : Serves announce trigger rest t u) : Serves announce trigger (rule :: rest) s u

/-- Immediate rules are all served, unless one of them hangs. -/
theorem ends_immediate (announce : Event → Run Unit) (trigger : Trigger) (rules : List Rule)
    (s : System) :
    Ends (fun _ => False) (fun _ => True) (rules.forM (runImmediate announce trigger)) s fun _ =>
      Serves announce trigger rules s := by
  induction rules generalizing s with
  | nil => exact .done s
  | cons rule rest ih =>
    simp only [ends_forM_cons, runImmediate, ends_bind, ends_pure]
    refine (ends_runRule rule rule.actions _ _ _ s).ran.mono ?_
    rintro outcomes t ⟨hran, hcomplete⟩
    exact (ih t).mono fun _ u hlater => .next hran hcomplete hlater

end Run

/-! ## Moves -/

/-- The rules of a workflow that a move triggers. -/
def Workflow.triggered (w : Workflow) (m : Moved) : List Rule :=
  w.rules.filter fun r => r.onTransition && r.fits (.moved m) m.target

/-- The triggered rules that wait for a duration. -/
def Workflow.toArm (w : Workflow) (m : Moved) : List Rule := (w.triggered m).filter (·.deferred)

/-- The triggered rules that run at once. -/
def Workflow.toRun (w : Workflow) (m : Moved) : List Rule := (w.triggered m).filter (!·.deferred)

/-- A system after a move has ended the watches of the status that was left. -/
def System.leave (s : System) (m : Moved) : System :=
  { s with
    automation := { s.automation with watches := s.automation.watches.stay m }
    journal := ((s.automation.watches.left m).values.map .left).reverse ++ s.journal }

namespace Run

variable {announce : Event → Run Unit} {s : System} {w : Workflow} {m : Moved}

/-- The rule book of a version holds the rules of the version. -/
theorem ruleBook_apply (attained : s.Attained) {team : String} {version : Int}
    (bound : s.registry.version? team version = some w) :
    ∃ t, ruleBook team version s = .ok w.rules t ∧ s.Tends t := by
  unfold ruleBook
  rw [get_bind_apply]
  cases hbook : s.automation.rules.get? (team, version) with
  | some book =>
    obtain rfl := attained.book bound hbook
    exact ⟨s, rfl, rfl⟩
  | none =>
    simp only [get_bind_apply, ofExcept_bind_apply, Registry.version, bound]
    exact ⟨_, rfl, rfl⟩

/-- A move arms its deferred rules, and then runs its immediate ones. -/
theorem runRules_moved (w : Workflow) (m : Moved) :
    runRules announce w.rules m.trigger true = (do
      (w.toArm m).forM (armRule m.trigger true)
      (w.toRun m).forM (runImmediate announce m.trigger)) := by
  have hfilter (kind : Rule → Bool) :
      (w.rules.filter fun r => kind r && r.trigger = "transition").filter
          (fun r => r.fits (.moved m) m.target) = (w.triggered m).filter kind := by
    simp only [Workflow.triggered, List.filter_filter, Rule.onTransition, Rule.transitionTrigger]
    exact List.filter_congr fun r _ => by grind
  unfold Workflow.toArm Workflow.toRun
  rw [← hfilter, ← hfilter]
  rfl

/-- Taking in a move ends watches, and then looks up the rules. -/
theorem handleMoved_apply (m : Moved) (s : System) :
    handleMoved announce m s =
      (ruleBook m.team m.workflowVersion >>= fun rules => runRules announce rules m.trigger true)
        (s.leave m) := by
  have hset : setWatches (s.automation.watches.stay m) s = .ok () { s with
      automation := { s.automation with watches := s.automation.watches.stay m } } := rfl
  unfold handleMoved
  rw [get_bind_apply, bind_apply, hset]
  dsimp only
  rw [bind_apply, forM_note]
  rfl

/-- Within the limit, a move is taken in by arming rules and then running others. -/
theorem handleEvent_moved (announce : Event → Run Unit) (attained : s.Attained)
    (bound : s.registry.version? m.team m.workflowVersion = some w)
    (depth : m.depth ≤ s.settings.maxCascadeDepth) :
    ∃ t, s.Tends t ∧ handleEvent announce (.moved m) s =
      match (w.toArm m).forM (armRule m.trigger true) t with
      | .ok _ u => (w.toRun m).forM (runImmediate announce m.trigger) u
      | .error halt u => .error halt u := by
  let heard : System := { s with journal := .handled (.moved m) :: s.journal }
  have hattained : (heard.leave m).Attained := ⟨attained.keyed, attained.reached⟩
  have hbound : (heard.leave m).registry.version? m.team m.workflowVersion = some w := bound
  obtain ⟨t, hbook, htends⟩ := ruleBook_apply hattained hbound
  have hleft : s.Tends (heard.leave m) := rfl
  refine ⟨t, hleft.trans htends, ?_⟩
  unfold handleEvent
  rw [get_bind_apply]
  dsimp only
  rw [if_neg (by simpa [Event.depth] using depth)]
  change handleMoved announce m heard = _
  rw [handleMoved_apply, bind_apply, hbook]
  dsimp only
  rw [runRules_moved, bind_apply]
  cases (w.toArm m).forM (armRule m.trigger true) t <;> rfl

end Run

/-! ## What hangs -/

/-- A core whose items stand under their ids, and in which every collaborator answers. -/
structure Core.Answers (limit : Int) (c : Core) : Prop where
  limited : c.limit = limit
  keyed : ∀ id item, c.items.get? id = some item → item.id = id
  answered : ∀ x, c.conducts x ≠ .hanging

theorem Core.Answers.save {limit : Int} {c : Core} (h : c.Answers limit) (item : Item) :
    (c.save item).Answers limit :=
  ⟨h.limited, Table.forall_get?_put rfl fun id item _ => h.keyed id item, h.answered⟩

theorem Core.moving_answers (limit : Int) :
    Moving limit (Answers limit) (fun _ => False) fun _ => Answers limit where
  limited h := h.limited
  keyed h := h.keyed _ _
  touched h _ _ := h.save _
  learned h _ := ⟨h.limited, h.keyed, h.answered⟩
  signalled _ _ h := ⟨h.limited, h.keyed, h.answered⟩
  hangs h hhanging := h.answered _ hhanging
  rescued h := h.elim
  pending h := h.limited
  committed _ h _ _ _ := h.save _
  created _ _ _ h _ _ _ :=
    ⟨h.limited, Table.forall_get?_put rfl fun id item _ => h.keyed id item, h.answered⟩

namespace Run

variable {announce : Event → Run Unit}

/-- Where every collaborator answers, announcing over any number of levels does not hang. -/
theorem settles_cascade_answers (limit : Int) (n : Nat) (depth : Int) :
    Core.Settles (Core.Answers limit) (fun _ => False) (fun _ => Core.Answers limit) depth
      (cascade n) := by
  have moving := Core.moving_answers limit
  induction n generalizing depth with
  | zero => exact fun _ _ _ h => h
  | succ n ih =>
    have hpublishes : Core.Publishes limit (Core.Answers limit) (fun _ => False)
        fun _ => Core.Answers limit :=
      publishes_of_blind moving.toSteady (fun _ h => ⟨h.limited, h.keyed, h.answered⟩)
        fun _ h => ⟨h.limited, h.keyed, h.answered⟩
    exact fun m s _ h => hpublishes (cascade n) m s (fun _ => moves_of_settles moving (ih _)) h

/-- Where every collaborator answers, asking for a move does not hang. -/
theorem moves_answers (announcer : announce = Run.publish ∨ ∃ n, announce = Run.cascade n)
    (limit depth : Int) :
    Core.Moves (Core.Answers limit) (fun _ => False) depth announce := by
  have moving := Core.moving_answers limit
  obtain rfl | ⟨n, rfl⟩ := announcer
  · exact moves_publish moving (fun n depth _ => settles_cascade_answers _ n depth) depth
  · exact moves_of_settles moving (settles_cascade_answers _ n depth)

/-- Taking in an event hangs only within an action, and only where a collaborator never answers. -/
theorem hangs_handleEvent
    (announcer : announce = Run.publish ∨ ∃ n, announce = Run.cascade n) {s t : System}
    (keyed : ∀ id item, s.items.get? id = some item → item.id = id) {event : Event}
    (hung : handleEvent announce event s = .error .hung t) :
    s.runner.inside = true ∧ ∃ c, s.runner.conducts c = .hanging := by
  constructor
  · by_contra hinside
    have hidle : s.IsIdle := by simpa [System.IsIdle] using hinside
    have hreturns : Returns (handleEvent announce event) := returns_handleEvent event
    have hends := hreturns s hidle
    rwa [Ends, hung] at hends
  · by_contra hanswered
    have moving := Core.moving_answers s.settings.maxCascadeDepth
    have hstart : Core.Answers s.settings.maxCascadeDepth s.core :=
      ⟨rfl, keyed, fun x hhanging => hanswered ⟨x, hhanging⟩⟩
    have hstays : Stays (Core.On (Core.Answers s.settings.maxCascadeDepth))
        (Core.On fun _ => False) (handleEvent announce event) :=
      stays_handleEvent moving.toSteady fun _ => moves_answers announcer _ _
    have hends := hstays s hstart
    rwa [Ends, hung] at hends

end Run

/-! ## Serving -/

/-- If every triggered rule that waits is due at some time, no rule of an activated workflow keeps
another one from being served. Automation takes in the move without a fault. First, with nothing
touched but watches, rule books and the journal, the watch of every triggered rule that waits comes
to stand as the move arms it; then every other triggered rule has its actions run exactly once, in
the order of the rules, whatever becomes of them. The event may hang only where it is taken in
within an action and a collaborator never answers; that action is then given up as a whole. -/
theorem move_serves_rules {s u u' : System} {team : String} {w : Workflow} {m : Moved}
    {announce : Event → Run Unit}
    (accepted : Run.activate team u = .ok w u') (attained : s.Attained)
    (bound : s.registry.version? m.team m.workflowVersion = some w)
    (depth : m.depth ≤ s.settings.maxCascadeDepth)
    (announcer : announce = Run.publish ∨ ∃ n, announce = Run.cascade n)
    (datable : ∀ rule ∈ w.toArm m, (rule.dueAt? m.time).isSome) :
    ∃ armed, s.Tends armed ∧ (∀ rule ∈ w.toArm m, armed.HasArmed m rule) ∧
      match Run.handleEvent announce (.moved m) s with
      | .ok _ t => Run.Serves announce m.trigger (w.toRun m) armed t
      | .error (.raised _) _ => False
      | .error .hung _ => s.runner.inside = true ∧ ∃ c, s.runner.conducts c = .hanging := by
  have hdistinct : ((w.toArm m).map (·.id)).Nodup := by
    have hsublist : (w.toArm m).Sublist w.rules :=
      List.filter_sublist.trans List.filter_sublist
    exact (hsublist.map _).nodup (distinct_rules (Run.activate_eq_ok accepted).1)
  obtain ⟨t, htends, hrun⟩ := Run.handleEvent_moved announce attained bound depth
  obtain ⟨armed, harm, htends', harmed, -⟩ := Run.armRules_apply hdistinct datable t
  refine ⟨armed, htends.trans htends', harmed, ?_⟩
  simp only [harm] at hrun
  have hserves := Run.ends_immediate announce m.trigger (w.toRun m) armed
  rw [Run.Ends, ← hrun] at hserves
  split <;> rename_i heq
  · rwa [heq] at hserves
  · rwa [heq] at hserves
  · exact Run.hangs_handleEvent announcer attained.keyed heq

/-- A rule that notifies somebody of items that enter "B". -/
def notifyingRule (id : String) (more : Fields := []) : Json :=
  .obj ([("id", .str id), ("to", .str "B"),
    ("actions", .arr [.obj [("type", .str "notify"), ("channel", .str id)]])] ++ more)

/-- The sample team with some rules is activated, and an item is created. -/
def enteredSession (rules : List Json) : List Operation :=
  sampleSession rules ++ [.create { team := "t", id := some "i" }]

/-- The move of that item to "B". -/
def sampleMove : Moved where
  item := "i"
  team := "t"
  workflowVersion := 1
  source := some "A"
  target := "B"
  sourceStage := some "work"
  targetStage := "work"
  actor := "system"
  time := { micros := 0 }

/-- The item is bound to what the activation gave. -/
theorem version?_entered {rules : List Json} {w : Workflow} {u : System}
    (accepted : Run.activate "t" (System.through {} [.putDocument (sampleDocument rules [])]) =
      .ok w u) (names : (w.team, w.version) = ("t", 1)) :
    (System.through {} (enteredSession rules)).registry.version? "t" 1 = some w := by
  have coherent (ops : List Operation) : (System.through {} ops).registry.Coherent :=
    coherent_through (System.new_default {}).sound Registry.coherent_empty ops
  have hreaches : Reaches .loose {} (System.through {} (sampleSession rules)) :=
    reaches_loose (System.new_default {}).sound _
  have hactivated : System.through {} (sampleSession rules) = u := by
    change (Operation.activate "t").perform.after
      (System.through {} [.putDocument (sampleDocument rules [])]) = u
    rw [Operation.perform, Run.after_bind_pure, Run.after, accepted]
  have hpublished : u.registry.version? "t" 1 = some w := by
    obtain ⟨-, notices, hu⟩ := Run.activate_eq_ok accepted
    have hcoherent := coherent (sampleSession rules)
    rw [hactivated] at hcoherent
    rw [hcoherent.version?_eq, hu, ← names]
    exact Table.get?_put_self ..
  have hentered : System.through {} (enteredSession rules) =
      u.through [.create { team := "t", id := some "i" }] := by rw [← hactivated]; rfl
  rw [hentered]
  refine version?_through ?_ ?_ _ hpublished
  all_goals rw [← hactivated]
  · exact hreaches.sound
  · exact coherent _

/-- A rule that waits for an hour, and one that does not wait. -/
def servedRules : List Json :=
  [notifyingRule "late" [("duration", .str "1h")], notifyingRule "prompt"]

theorem move_serves_rules_sample :
    let s := System.through {} (enteredSession servedRules)
    ∃ (w : Workflow) (armed t : System), (w.toArm sampleMove).map (·.id) = ["late"] ∧
      (w.toRun sampleMove).map (·.id) = ["prompt"] ∧
      (∀ rule ∈ w.toArm sampleMove, armed.HasArmed sampleMove rule) ∧
      Run.handleEvent Run.publish (.moved sampleMove) s = .ok () t ∧
      Run.Serves Run.publish sampleMove.trigger (w.toRun sampleMove) armed t := by
  have hrun : (Run.activate "t").succeeds
      (System.through {} [.putDocument (sampleDocument servedRules [])]) fun w _ =>
        (w.team, w.version) = ("t", 1) ∧ (w.toArm sampleMove).map (·.id) = ["late"] ∧
          (w.toRun sampleMove).map (·.id) = ["prompt"] ∧
          ∀ rule ∈ w.toArm sampleMove, (rule.dueAt? sampleMove.time).isSome := by decide +kernel
  have hentered : (System.through {} (enteredSession servedRules)).runner.inside = false ∧
      0 ≤ (System.through {} (enteredSession servedRules)).settings.maxCascadeDepth := by
    decide +kernel
  have attained : (System.through {} (enteredSession servedRules)).Attained :=
    attained_through (System.new_default {}) Registry.coherent_empty rfl _
  obtain ⟨w, u, accepted, hfacts⟩ := Run.succeeds_iff.1 hrun
  obtain ⟨hnames, hwait, hprompt, hdatable⟩ := of_decide_eq_true hfacts
  have hbound := version?_entered accepted hnames
  generalize System.through {} (enteredSession servedRules) = s at hentered attained hbound
  obtain ⟨armed, -, harmed, hserved⟩ :=
    move_serves_rules accepted attained hbound hentered.2 (.inl rfl) hdatable
  split at hserved
  · rename_i t hhandled
    exact ⟨w, armed, t, hwait, hprompt, harmed, hhandled, hserved⟩
  · exact hserved.elim
  · simp [hentered.1] at hserved

/-- A triggered rule that waits and is due at no time silences the others: the move is taken in with
a fault, and nothing has been touched but watches, rule books and the journal, so no action was run.
-/
theorem undatable_silences {s : System} {w : Workflow} {m : Moved} {announce : Event → Run Unit}
    (attained : s.Attained) (bound : s.registry.version? m.team m.workflowVersion = some w)
    (depth : m.depth ≤ s.settings.maxCascadeDepth)
    (undatable : ∃ rule ∈ w.toArm m, rule.dueAt? m.time = none) :
    ∃ d t, Run.handleEvent announce (.moved m) s = .error (.raised (.defect d)) t ∧ s.Tends t := by
  obtain ⟨t, htends, hrun⟩ := Run.handleEvent_moved announce attained bound depth
  have hdeferred : ∀ rule ∈ w.toArm m, rule.deferred := fun rule hrule =>
    (List.mem_filter.1 hrule).2
  obtain ⟨d, t', hraised, htends'⟩ := Run.armRules_raises hdeferred undatable t
  rw [hrun, hraised]
  exact ⟨d, t', rfl, htends.trans htends'⟩

/-- A rule that waits for longer than there are years, in front of two that can be served. -/
def silencedRules : List Json :=
  notifyingRule "never" [("duration", .str "9999999d")] :: servedRules

/-- The team is activated, and the move of its item is taken in with a fault: nothing is armed, and
nobody is notified. -/
theorem undatable_silences_sample :
    let s := System.through {} (enteredSession silencedRules)
    s.Attained ∧ ∃ (u u' : System) (w : Workflow), Run.activate "t" u = .ok w u' ∧
      s.registry.version? "t" 1 = some w ∧
      (w.toArm sampleMove).map (·.id) = ["never", "late"] ∧
      (w.toRun sampleMove).map (·.id) = ["prompt"] ∧
      ∃ fault t, Run.handleEvent Run.publish (.moved sampleMove) s = .error (.raised fault) t ∧
        t.automation.watches.keys = [] ∧ t.records.sent.length = 0 := by
  have hrun : (Run.activate "t").succeeds
      (System.through {} [.putDocument (sampleDocument silencedRules [])]) fun w _ =>
        (w.team, w.version) = ("t", 1) ∧ (w.toArm sampleMove).map (·.id) = ["never", "late"] ∧
          (w.toRun sampleMove).map (·.id) = ["prompt"] := by decide +kernel
  have hsilenced : (Run.handleEvent Run.publish (.moved sampleMove)).raises
      (System.through {} (enteredSession silencedRules)) fun t =>
        t.automation.watches.keys = [] ∧ t.records.sent.length = 0 := by decide +kernel
  have attained : (System.through {} (enteredSession silencedRules)).Attained :=
    attained_through (System.new_default {}) Registry.coherent_empty rfl _
  obtain ⟨w, u', accepted, hfacts⟩ := Run.succeeds_iff.1 hrun
  obtain ⟨hnames, hwait, hprompt⟩ := of_decide_eq_true hfacts
  obtain ⟨fault, t, hhandled, hnothing⟩ := Run.raises_iff.1 hsilenced
  exact ⟨attained, _, u', w, accepted, version?_entered accepted hnames, hwait, hprompt, fault, t,
    hhandled, of_decide_eq_true hnothing⟩

end Stageflow
