import Stageflow.Proofs.Actions
import Stageflow.Proofs.Publications
import Stageflow.Proofs.Serving
import Stageflow.Proofs.Twins.Session

/-!
# The effects of actions

An action comes to its effect last: what can fail comes before the call of a collaborator or the
write of a move. Behind it only two things may: an action tells of its effect, so what it names has
to be written (`Action.Tells`), and the calls for the event of a move are waited for, as is the
action itself. Where neither is in the way, an action that fails leaves a system as it was, but for
what it noted. Nothing that is done depends on what was noted before; so actions that are run one
after another come to the same as those of them that do not fail.

## Main statements

* `harmless_carryOut` — an action that can tell of its effect and fails has only made notes.
* `System.Calm.through` — nothing that is done brings in rivals or silences collaborators.
* `failed_actions_do_nothing` — a list of actions comes to what its successful actions come to.
-/

namespace Stageflow

open Run

variable {α β : Type} {s t : System} {announce : Event → Run Unit} {context : ActionContext}

/-- A system without what was noted. -/
def System.unnoted (s : System) : System := { s with journal := [] }

theorem System.eq_of_unnoted (same : t.unnoted = s.unnoted) : t = { s with journal := t.journal } :=
  congrArg (fun u => { u with journal := t.journal }) same

/-! ## Telling of an effect -/

/-- The parameters that an action names when it tells of its effect. -/
def ActionType.named : ActionType → List String
  | .assign => ["assignee"]
  | .createEdge => ["edge_type", "from", "to"]
  | .createDocument => ["path"]
  | .notify => ["channel"]
  | .createNode | .rollback | .autoTransition => []

/-- Whether an action can tell of its effect: the parameters that it names can be written. -/
def Action.Tells (action : Action) : Prop :=
  ∀ key ∈ action.type.named, ∀ value, action.params.get? key = some value → value.isWritable

/-- Templates are filled in to texts, and what is no text is left as it is. -/
theorem isWritable_fillValue {bindings : Fields} {raw value : Json}
    (h : Template.fillValue bindings raw = .ok value) (writable : raw.isWritable) :
    value.isWritable := by
  unfold Template.fillValue at h
  split at h
  · obtain ⟨text, -, rfl⟩ := map_eq_ok.1 h
    exact Json.isWritable_str
  · cases h
    exact writable

/-- A parameter that is filled in comes from one of the same name. -/
theorem get?_fillFields {bindings fields params : Fields} {key : String} {value : Json}
    (h : fillFields bindings fields = .ok params) (hvalue : params.get? key = some value) :
    ∃ raw, fields.get? key = some raw ∧ Template.fillValue bindings raw = .ok value := by
  induction fields generalizing params with
  | nil =>
    cases h
    cases hvalue
  | cons p rest ih =>
    obtain ⟨name, raw⟩ := p
    rw [fillFields, List.mapM_cons] at h
    obtain ⟨first, hfirst, h⟩ := bind_eq_ok.1 h
    obtain ⟨others, hothers, h⟩ := bind_eq_ok.1 h
    cases h
    split at hfirst
    · rename_i filled hfilled
      cases hfirst
      simp only [Table.get?] at hvalue ⊢
      split at hvalue
      · rename_i hname
        cases hvalue
        exact ⟨raw, if_pos hname, hfilled⟩
      · rename_i hname
        rw [if_neg hname]
        exact ih hothers hvalue
    · cases hfirst

/-- An action that can tell of its effect can do so when its parameters are filled in. -/
theorem Action.Tells.filled {action : Action} (tells : action.Tells) {bindings params : Fields}
    (h : fillFields bindings action.params = .ok params) {key : String}
    (named : key ∈ action.type.named) {value : Json} (hvalue : params.get? key = some value) :
    value.isWritable := by
  obtain ⟨raw, hraw, hfill⟩ := get?_fillFields h hvalue
  exact isWritable_fillValue hfill (tells key named raw hraw)

theorem isWritable_orElse {value other : Json} (h : value.isWritable) (h' : other.isWritable) :
    (value.orElse other).isWritable := by
  unfold Json.orElse
  split <;> assumption

/-! ## Failing before the effect -/

namespace Run

variable {I : System → Prop} {c : System}

/-- Whether a computation that is run where a property holds leaves it so if it fails. -/
def Harmless (I : System → Prop) (action : Run α) : Prop :=
  ∀ s, I s → Ends I (fun _ => True) action s fun _ _ => True

namespace Harmless

/-- What only reads may come before. -/
theorem after {action : Run α} {next : α → Run β} (h : Keeps I action)
    (hn : ∀ a, Harmless I (next a)) : Harmless I (action >>= next) := by
  intro s hs
  have hread := h s hs
  rw [ends_bind]
  unfold Leads at hread
  unfold Ends
  split
  · rename_i a t hok
    rw [hok] at hread
    exact hn a t hread
  · rename_i t hraised
    rw [hraised] at hread
    exact hread
  · trivial

/-- What is read without a fault is known behind it. -/
theorem ofExcept {x : Except Fault α} {next : α → Run β}
    (hn : ∀ a, x = .ok a → Harmless I (next a)) : Harmless I (Run.ofExcept x >>= next) := by
  intro s hs
  rw [ends_bind, ends_ofExcept]
  cases x with
  | ok a => exact hn a rfl s hs
  | error fault => exact hs

theorem parameter {action : ActionType} {params : Fields} {name : String} {next : Json → Run β}
    (hn : ∀ value, params.get? name = some value → Harmless I (next value)) :
    Harmless I (Run.parameter action params name >>= next) := by
  intro s hs
  rw [ends_bind]
  unfold Run.parameter
  split
  · rename_i value hvalue
    exact hn value hvalue s hs
  · exact hs

/-- What never fails may come behind. -/
theorem before {action : Run α} {next : α → Run β} (h : Harmless I action)
    (hn : ∀ a, NeverFails (next a)) : Harmless I (action >>= next) :=
  fun s hs => ends_bind.2 ((h s hs).mono fun a t _ => (hn a t).weaken fun _ => False.elim)

end Harmless

/-! ## Actions -/

/-- A collaborator that is there makes its effect, or has done nothing. -/
theorem harmless_call {x : Collaborator} {effect : Run α} (h : NeverFails effect) :
    Harmless I (call x effect) := by
  intro s hs
  simp only [call, ends_bind, ends_get]
  split
  · exact hs
  · exact hs
  · trivial
  · exact (h s).weaken fun _ => False.elim

theorem neverFails_record {change : Records → Records} : NeverFails (record change) :=
  fun _ => trivial

/-- What is read without a fault can be told. -/
theorem neverFails_ofReading {reading : Except Defect α} {a : α} (h : reading = .ok a) :
    NeverFails (ofReading reading) := by
  rw [h]
  exact fun _ => trivial

theorem harmless_runAssign {params : Fields}
    (told : ∀ value, params.get? "assignee" = some value → value.isWritable) :
    Harmless I (runAssign context params) :=
  .after Tolerates.keeps_need fun _ => .parameter fun value hvalue =>
    (harmless_call neverFails_record).before fun _ => neverFails_ofReading
      (bind_eq_ok.2 ⟨_, Json.written_of_isWritable (told value hvalue), rfl⟩)

theorem harmless_runCreateNode {params : Fields} : Harmless I (runCreateNode context params) := by
  refine .after Tolerates.keeps_need fun _ => .parameter fun type _ => ?_
  have hnode : NeverFails do
      let id ← newId
      record fun r => { r with nodes := r.nodes ++ [⟨id, type, context.item⟩] }
      return id := fun _ => trivial
  exact (harmless_call hnode).before fun _ _ => trivial

theorem harmless_runCreateEdge {item : Item} {params : Fields}
    (told : ∀ key ∈ ["edge_type", "from", "to"], ∀ value, params.get? key = some value →
      value.isWritable) :
    Harmless I (runCreateEdge (variablesOf context item) params) := by
  refine .after Tolerates.keeps_need fun _ => .parameter fun type htype => ?_
  -- an end of the edge that is not given is a status
  have hend {key name text : String} (named : key ∈ ["edge_type", "from", "to"])
      (bound : Fields.getOrNull name (variablesOf context item) = .str text) :
      ((params.getOrNull key).orElse (Fields.getOrNull name (variablesOf context item))).written =
        .ok ((params.getOrNull key).orElse
          (Fields.getOrNull name (variablesOf context item))).display := by
    refine Json.written_of_isWritable (isWritable_orElse ?_ (bound ▸ Json.isWritable_str))
    unfold Fields.getOrNull Fields.getOr
    cases hvalue : params.get? key with
    | none => exact Json.isWritable_null
    | some value => exact told key named value hvalue
  refine (harmless_call neverFails_record).before fun _ => neverFails_ofReading
    (bind_eq_ok.2 ⟨_, hend (by simp) rfl, bind_eq_ok.2 ⟨_, hend (by simp) rfl,
      bind_eq_ok.2 ⟨_, Json.written_of_isWritable (told _ (by simp) type htype), rfl⟩⟩⟩)

theorem harmless_runCreateDocument {bindings params : Fields}
    (told : ∀ value, params.get? "path" = some value → value.isWritable) :
    Harmless I (runCreateDocument bindings params) :=
  .after Tolerates.keeps_need fun _ => .ofExcept fun _ _ => .parameter fun _ _ =>
    .parameter fun path hpath => (harmless_call neverFails_record).before fun _ =>
      neverFails_ofReading (bind_eq_ok.2 ⟨_, Json.written_of_isWritable (told path hpath), rfl⟩)

theorem harmless_runNotify {params : Fields}
    (told : ∀ value, params.get? "channel" = some value → value.isWritable) :
    Harmless I (runNotify params) :=
  .after Tolerates.keeps_need fun _ => .parameter fun channel hchannel =>
    (harmless_call neverFails_record).before fun _ => neverFails_ofReading
      (bind_eq_ok.2 ⟨_, Json.written_of_isWritable (told channel hchannel), rfl⟩)

/-- Whatever the type of an action, its effect comes last. -/
theorem harmless_execute {action : Action} (tells : action.Tells)
    (load : Keeps I (loadItem context.item))
    (noted : ∀ {s notice}, I s → I { s with journal := notice :: s.journal })
    (move : ∀ target, Harmless I (moveItem announce context.item target context.actor)) :
    Harmless I (execute announce action context) := by
  have hask (target : Json) (detail : Passage → String) :
      Harmless I (askMove announce context target >>= fun passage => pure (detail passage)) :=
    .before (.after (.modify fun _ hs => noted hs) fun _ => move target) fun _ _ => trivial
  refine .after load fun item => .ofExcept fun params hparams => ?_
  have told {key : String} (named : key ∈ action.type.named) (value : Json)
      (hvalue : params.get? key = some value) : value.isWritable :=
    tells.filled hparams named hvalue
  cases htype : action.type with
  | assign => exact harmless_runAssign (told (by simp [htype, ActionType.named]))
  | createNode => exact harmless_runCreateNode
  | createEdge => exact harmless_runCreateEdge fun key hkey => told (htype ▸ hkey)
  | createDocument => exact harmless_runCreateDocument (told (by simp [htype, ActionType.named]))
  | notify => exact harmless_runNotify (told (by simp [htype, ActionType.named]))
  | rollback => exact .after (Tolerates.keeps_rollbackTarget load) fun target => hask target _
  | autoTransition => exact .parameter fun target _ => hask target _

theorem harmless_carryOut {action : Action} (tells : action.Tells)
    (load : Keeps I (loadItem context.item))
    (noted : ∀ {s notice}, I s → I { s with journal := notice :: s.journal })
    (move : ∀ target, Harmless I (moveItem announce context.item target context.actor)) :
    Harmless I (carryOut announce action context) := by
  refine .after (.modify fun _ hs => noted hs) fun _ s hs => ?_
  exact ((harmless_execute tells load noted move s hs).mono fun _ _ _ => trivial).tryFinally_note
    (fun _ => noted) fun _ _ => trivial

/-! ## Moves -/

/-- A system that no rival waits in is only noted in where an item is loaded. -/
theorem keeps_unnoted_loadItem (alone : c.rival = none) (id : String) :
    Keeps (·.unnoted = c.unnoted) (loadItem id) := by
  rintro s hs
  have hrival : s.rival = none := (congrArg System.rival hs).trans alone
  unfold Leads
  rw [loadItem_apply]
  cases s.items.get? id with
  | none => exact hs
  | some item => simpa [overtake, hrival] using hs

theorem harmless_writeItem (item : Item) (expected : Int) :
    Harmless I (writeItem item expected) := by
  intro s hs
  unfold Ends
  rw [writeItem_apply]
  cases s.items.get? item.id with
  | none => exact hs
  | some current =>
    dsimp only
    split
    · rename_i heq
      split at heq <;> cases heq
      trivial
    · rename_i heq
      split at heq <;> cases heq
      exact hs
    · trivial

/-- A move is decided before it is written. -/
theorem harmless_commitMove (alone : c.rival = none) (id : String) (target : Json) (actor : Actor) :
    Harmless (·.unnoted = c.unnoted) (commitMove id target actor) :=
  .after (keeps_unnoted_loadItem alone id) fun _ => .after (.bind .get fun _ => .ofExcept) fun _ =>
    .after .ofExcept fun _ => .after .get fun _ =>
      .before (harmless_writeItem _ _) fun _ _ => trivial

/-- A lock that is taken is given back. -/
theorem harmless_underLock {id : String} {action : Run α}
    (h : ∀ c : System, c.rival = none → Harmless (·.unnoted = c.unnoted) action)
    (alone : c.rival = none) : Harmless (·.unnoted = c.unnoted) (underLock id action) := by
  intro s hs
  have hrival : s.rival = none := (congrArg System.rival hs).trans alone
  have hrun := h { s with held := id :: s.held } hrival { s with held := id :: s.held } rfl
  rw [← hs]
  unfold Ends at hrun ⊢
  rw [underLock_apply]
  by_cases hwait : s.settings.waitsTooLong
  · simp only [hwait, if_true]
  by_cases hheld : id ∈ s.held
  · simp only [hwait, hheld, Bool.false_eq_true, if_false, if_true]
  simp only [hwait, hheld, Bool.false_eq_true, if_false]
  cases haction : action { s with held := id :: s.held } with
  | ok a t => trivial
  | error halt t =>
    rw [haction] at hrun
    cases halt with
    | hung => trivial
    | raised fault =>
      have hheld : t.held = id :: s.held := congrArg System.held hrun
      dsimp only
      rw [hheld, List.erase_cons_head]
      exact congrArg (fun u => { u with held := s.held }) hrun

/-- What fails only where the calls for an event cannot be waited for never fails where they can. -/
theorem FailsLate.ends {action : Run α} (h : FailsLate action)
    (inTime : s.settings.deliversTooLong = false) :
    Ends (fun _ => False) (fun _ => True) action s fun _ _ => True := by
  have hfails := h s
  unfold FailsBy at hfails
  unfold Ends
  split
  · trivial
  · rename_i hraised
    rw [hraised] at hfails
    exact absurd (inTime.symm.trans hfails.2) Bool.false_ne_true
  · trivial

/-- What comes behind the write of a move is its announcement. -/
theorem harmless_moveItem (ha : ∀ event, FailsLate (announce event)) (alone : c.rival = none)
    (inTime : c.settings.deliversTooLong = false) (id : String) (target : Json) (actor : Actor) :
    Harmless (·.unnoted = c.unnoted) (moveItem announce id target actor) := by
  intro s hs
  have hinTime : s.settings.deliversTooLong = false :=
    (congrArg (·.settings.deliversTooLong) hs).trans inTime
  have hharmless : Harmless (·.unnoted = c.unnoted) (underLock id (commitMove id target actor)) :=
    harmless_underLock (fun _ h => harmless_commitMove h id target actor) alone
  have hcommit := (hharmless s hs).and (spares_underLock (spares_commitMove id target actor) s)
  rw [moveItem, ends_bind]
  refine (hcommit.weaken fun _ h => h.1).hanging (fun _ _ => trivial) |>.mono ?_
  rintro passage t ⟨-, ht⟩
  rw [ends_bind]
  exact ((ha _).ends (ht ▸ hinTime)).weaken (fun _ => False.elim)
    |>.mono fun _ _ _ => trivial

end Run

/-! ## Calm systems -/

/-- Whether nothing but faults keeps an action from its effect: items stand under their ids, no
rival waits for one, every collaborator answers, and subscribers and actions can be waited for. -/
structure System.Calm (s : System) : Prop where
  sound : s.Sound
  alone : s.rival = none
  answered : ∀ x, s.runner.conducts x ≠ .hanging
  deliveries : s.settings.deliversTooLong = false
  actions : s.settings.actsTooLong = false

/-- The pact that everything keeps to. -/
def Pact.free : Pact where
  bound _ _ _ := True
  reacts _ := True
  asks _ := True
  deepens _ := trivial
  mixes _ _ := trivial

namespace System.Calm

theorem answers (h : s.Calm) : Core.Answers s.settings.maxCascadeDepth s.core :=
  ⟨rfl, h.sound.items, h.answered⟩

/-- Systems that differ only in what was noted are in step. -/
theorem inStep (h : s.Calm) (same : t.unnoted = s.unnoted) :
    Pact.free.InStep s t s.runner.inside s t := by
  refine ⟨s, [], rfl, ?_, rfl, rfl, rfl, id, fun _ => id,
    fun id item hitem => ⟨h.sound.items id item hitem, trivial⟩, fun _ _ => trivial,
    fun _ _ => trivial, by simp⟩
  rw [System.eq_of_unnoted same]
  rfl

theorem of_holds (h : s.Calm) {inside : Bool} {u : System} {notices : List Notice}
    (hu : Pact.free.Holds s inside u notices) : (u.behind s notices).Calm where
  sound := ⟨fun id item hitem => (hu.items id item hitem).1, h.sound.source⟩
  alone := hu.alone h.alone
  answered x := by
    change u.runner.conducts x ≠ .hanging
    rw [hu.conducts]
    exact h.answered x
  deliveries := by
    change u.settings.deliversTooLong = false
    rw [hu.settings]
    exact h.deliveries
  actions := by
    change u.settings.actsTooLong = false
    rw [hu.settings]
    exact h.actions

end System.Calm

namespace Run

/-- A failure that is reported adds a note at most. -/
theorem ends_failed {action : ActionType} {rule : String} {fault : Fault}
    (same : t.unnoted = s.unnoted) :
    Ends (fun _ => False) (fun _ => False) (failed action rule fault) t fun outcome u =>
      outcome.ok = false → u.unnoted = s.unnoted := by
  unfold failed
  split <;> exact fun _ => same

theorem ends_outcomeOf {action : ActionType} {rule : String} {result : Except Fault String}
    (same : ∀ fault, result = .error fault → t.unnoted = s.unnoted) :
    Ends (fun _ => False) (fun _ => False) (outcomeOf action rule result) t fun outcome u =>
      outcome.ok = false → u.unnoted = s.unnoted := by
  cases result with
  | ok detail =>
    intro hfailed
    cases hfailed
  | error fault => exact ends_failed (same fault rfl)

/-- A worker adds nothing to what is run on it, and is left behind as it was found. -/
theorem ends_onWorker {action : ActionType} {rule : String} {body : Run String}
    (outside : s.runner.inside = false) (inTime : s.settings.actsTooLong = false)
    (hbody : Ends (·.unnoted = (System.entered s true).unnoted) (fun _ => False) body
      (System.entered s true) fun _ t => t.settings = s.settings) :
    Ends (fun _ => False) (fun _ => False) (onWorker action rule body) s fun outcome t =>
      outcome.ok = false → t.unnoted = s.unnoted := by
  simp only [onWorker, ends_bind, ends_get]
  split
  · simp only [giveUp, ends_bind, ends_get, inTime]
    exact fun _ => rfl
  have hcaught : Ends (fun _ => False) (fun _ => False)
      (tryCatch (do return some (← attempt body)) fun _ => pure none) (System.entered s true)
      fun result t => ∃ ended, result = some ended ∧ t.settings = s.settings ∧
        ∀ fault, ended = .error fault → t.unnoted = (System.entered s true).unnoted := by
    refine Ends.tryCatch (I := fun _ => False) (H := fun _ => False) (ends_bind.2 ?_)
      (fun _ _ => False.elim) fun _ => False.elim
    refine Ends.attempt (hbody.mono fun _ _ ht => ⟨_, rfl, ht, fun _ h => by cases h⟩) ?_
    exact fun _ _ same => ⟨_, rfl, congrArg (·.settings) same, fun _ _ => same⟩
  simp only [setInside, ends_bind, ends_modify]
  refine hcaught.mono ?_
  rintro _ t ⟨ended, rfl, hsettings, same⟩
  have hinTime : t.settings.actsTooLong = false := hsettings ▸ inTime
  simp only [outcomeFrom, ends_bind, ends_get, hinTime, Bool.false_and]
  refine ends_outcomeOf fun fault hfault => ?_
  refine (congrArg (System.entered · false) (same fault hfault)).trans ?_
  exact congrArg (fun inside => System.unnoted { s with runner.inside := inside }) outside.symm

theorem runActions_cons {action : Action} {rest : List Action} {outcomes : List Outcome} :
    runActions announce context (action :: rest) s = .ok outcomes t ↔
      ∃ outcome u others, runAction announce context action s = .ok outcome u ∧
        runActions announce context rest u = .ok others t ∧ outcomes = outcome :: others := by
  unfold runActions
  rw [List.mapM_cons, bind_apply_eq_ok]
  constructor
  · rintro ⟨outcome, u, hran, h⟩
    obtain ⟨others, v, hrest, h⟩ := bind_apply_eq_ok.1 h
    cases h
    exact ⟨outcome, u, others, hran, hrest, rfl⟩
  · rintro ⟨outcome, u, others, hran, hrest, rfl⟩
    exact ⟨outcome, u, hran, bind_apply_eq_ok.2 ⟨others, t, hrest, rfl⟩⟩

theorem runActions_append {before after : List Action} {done more : List Outcome} {u : System}
    (first : runActions announce context before s = .ok done u)
    (later : runActions announce context after u = .ok more t) :
    runActions announce context (before ++ after) s = .ok (done ++ more) t := by
  induction before generalizing done s with
  | nil =>
    cases first
    exact later
  | cons action rest ih =>
    obtain ⟨outcome, v, others, hran, hothers, rfl⟩ := runActions_cons.1 first
    exact runActions_cons.2 ⟨outcome, v, others ++ more, hran, ih hothers, rfl⟩

end Run

/-- The actions that have succeeded. -/
def succeeded (actions : List Action) (outcomes : List Outcome) : List Action :=
  ((actions.zip (outcomes.map (·.ok))).filter (·.2)).map (·.1)

namespace Run

/-- On the terms of a pact that everything keeps to, an announcement echoes itself. -/
theorem echoes_free (announcer : announce = Run.publish ∨ ∃ n, announce = Run.cascade n)
    (agrees : Pact.free.Agrees s t) (depth : Int) :
    Pact.free.Echoes s t depth announce announce := by
  obtain rfl | ⟨n, rfl⟩ := announcer
  · exact (announces_publish agrees).echoes fun _ _ _ => trivial
  · exact fun _ _ _ tells => twins_cascade agrees (fun _ => trivial) n tells

section Calm

variable (announcer : announce = Run.publish ∨ ∃ n, announce = Run.cascade n) (calm : s.Calm)
include announcer calm

/-- In a calm system, an action that can tell of its effect gives its answer, or fails and has only
made notes. -/
theorem ends_carryOut (inside : s.runner.inside = true) (context : ActionContext) {action : Action}
    (tells : action.Tells) :
    Ends (·.unnoted = s.unnoted) (fun _ => False) (carryOut announce action context) s
      fun _ t => t.settings = s.settings := by
  have ha (event : Event) : FailsLate (announce event) := by
    obtain rfl | ⟨n, rfl⟩ := announcer
    · exact failsLate_publish event
    · exact failsLate_cascade n event
  have hharmless : Harmless (·.unnoted = s.unnoted) (carryOut announce action context) :=
    harmless_carryOut tells (keeps_unnoted_loadItem calm.alone _) (fun hs => hs) fun target =>
      harmless_moveItem ha calm.alone calm.deliveries _ target _
  have hstays : Stays (Core.On (Core.Answers s.settings.maxCascadeDepth)) (Core.On fun _ => False)
      (carryOut announce action context) :=
    stays_carryOut (Core.moving_answers s.settings.maxCascadeDepth).toSteady
      fun _ => moves_answers announcer _ (context.depth + 1)
  -- run beside itself, the action is seen to keep the settings
  have hsettings : Leads (·.settings = s.settings) (carryOut announce action context) s
      fun _ t => t.settings = s.settings := by
    have agrees : Pact.free.Agrees s s := fun _ _ _ _ => rfl
    have hrun := twins_carryOut agrees trivial (echoes_free announcer agrees (context.depth + 1))
      inside action s s (calm.inStep rfl)
    refine hrun.leads fun t ht => ?_
    obtain ⟨u, notices, rfl, -, hu⟩ := ht
    exact hu.settings
  have hrun := ((hharmless s rfl).and (hstays s calm.answers)).and_leads hsettings
  exact ((hrun.weaken fun _ h => h.1).hanging fun _ h => h.2).mono fun _ _ h => h.2

/-- In a calm system, an action that can tell of its effect has an outcome, and has only made notes
if that is a failure. -/
theorem runAction_ok (context : ActionContext) {action : Action} (tells : action.Tells) :
    ∃ outcome t, runAction announce context action s = .ok outcome t ∧
      outcome.action = action.type ∧ (outcome.ok = false → t.unnoted = s.unnoted) := by
  refine (reports_runAction context action s).exists_ok (I := fun _ => False) ?_
  simp only [runAction, ends_bind, ends_get]
  split
  · exact fun _ => rfl
  split
  · rename_i hinside
    simp only [ends_bind]
    refine Ends.attempt ((ends_carryOut announcer calm hinside context tells).mono ?_) ?_
    · exact fun _ _ _ h => by cases h
    · exact fun _ _ same => ends_outcomeOf fun _ _ => same
  · have entered : (System.entered s true).Calm :=
      ⟨⟨calm.sound.items, calm.sound.source⟩, calm.alone, calm.answered, calm.deliveries,
        calm.actions⟩
    exact ends_onWorker (by simp_all) calm.actions
      (ends_carryOut announcer entered rfl context tells)

/-- What an action comes to does not depend on what was noted before, and it leaves a calm system
calm. -/
theorem runAction_unnoted {action : Action} {outcome : Outcome} {u : System}
    (ran : runAction announce context action s = .ok outcome u) :
    u.Calm ∧ ∀ t, t.unnoted = s.unnoted →
      ∃ v, runAction announce context action t = .ok outcome v ∧ v.unnoted = u.unnoted := by
  have hstep (t : System) (same : t.unnoted = s.unnoted) :
      u.Calm ∧ ∃ v, runAction announce context action t = .ok outcome v ∧
        v.unnoted = u.unnoted := by
    have agrees : Pact.free.Agrees s t := fun _ team version _ =>
      congrArg (fun u => u.registry.version? team version) same.symm
    have hrun := twins_runAction agrees trivial (echoes_free announcer agrees (context.depth + 1))
      action s t (calm.inStep same)
    rw [ran] at hrun
    generalize runAction announce context action t = other at hrun
    cases hrun with
    | ok _ related =>
      obtain ⟨w, notices, rfl, rfl, hw⟩ := related
      refine ⟨calm.of_holds hw, _, rfl, ?_⟩
      rw [System.eq_of_unnoted same]
      rfl
  exact ⟨(hstep s rfl).1, fun t same => (hstep t same).2⟩

/-- In a calm system, every action of a list has its outcome. -/
theorem runActions_ok (context : ActionContext) {actions : List Action}
    (tells : ∀ action ∈ actions, action.Tells) :
    ∃ outcomes t, runActions announce context actions s = .ok outcomes t ∧ t.Calm ∧
      outcomes.map (·.action) = actions.map (·.type) := by
  induction actions generalizing s with
  | nil => exact ⟨[], s, rfl, calm, rfl⟩
  | cons action rest ih =>
    obtain ⟨hfirst, hrest⟩ := List.forall_mem_cons.1 tells
    obtain ⟨outcome, u, hran, htype, -⟩ := runAction_ok announcer calm context hfirst
    obtain ⟨outcomes, t, hrest, hcalm, htypes⟩ :=
      ih (runAction_unnoted announcer calm hran).1 hrest
    refine ⟨outcome :: outcomes, t, ?_, hcalm, by simp [htype, htypes]⟩
    exact runActions_cons.2 ⟨outcome, u, outcomes, hran, hrest, rfl⟩

/-- From a calm system, a list of actions comes to what those of them come to that succeed. -/
theorem runActions_succeeded {actions : List Action} {outcomes : List Outcome}
    (tells : ∀ action ∈ actions, action.Tells)
    (ran : runActions announce context actions s = .ok outcomes t) {s' : System}
    (same : s'.unnoted = s.unnoted) :
    ∃ t', runActions announce context (succeeded actions outcomes) s' =
      .ok (outcomes.filter (·.ok)) t' ∧ t'.unnoted = t.unnoted := by
  induction actions generalizing s s' outcomes with
  | nil =>
    cases ran
    exact ⟨s', rfl, same⟩
  | cons action rest ih =>
    obtain ⟨outcome, u, others, hran, hrest, rfl⟩ := runActions_cons.1 ran
    obtain ⟨hcalm, hagain⟩ := runAction_unnoted announcer calm hran
    obtain ⟨hfirst, htells⟩ := List.forall_mem_cons.1 tells
    cases hok : outcome.ok with
    | true =>
      -- a successful action is run again, whatever was noted in between
      obtain ⟨v, hv, hsame⟩ := hagain s' same
      obtain ⟨t', hlater, hend⟩ := ih hcalm htells hrest hsame
      refine ⟨t', ?_, hend⟩
      simp only [succeeded, List.map_cons, List.zip_cons_cons, hok, List.filter_cons_of_pos]
      exact runActions_cons.2 ⟨outcome, v, _, hv, hlater, rfl⟩
    | false =>
      -- a failed one is left out, and has left the system as it was
      obtain ⟨_, _, hran', -, hnothing⟩ := runAction_ok announcer calm context hfirst
      cases hran.symm.trans hran'
      obtain ⟨t', hlater, hend⟩ := ih hcalm htells hrest (same.trans (hnothing hok).symm)
      refine ⟨t', ?_, hend⟩
      simpa [succeeded, hok] using hlater

end Calm

end Run

/-! ## Sessions -/

theorem Pact.free_admits {op : Operation} (other : op.isOnDocuments = false) :
    Pact.free.Admits s s op := by
  have hears (event : Event) : Pact.free.Hears event := by
    cases event <;> trivial
  have descends (depth : Int) : Pact.free.Descends s.settings.maxCascadeDepth depth :=
    fun _ _ _ => trivial
  cases op with
  | create request => exact ⟨rfl, fun _ _ _ => trivial, descends _⟩
  | move | ingest | checkThresholds | tick => exact descends _
  | migrate => exact ⟨rfl, fun _ _ => trivial, fun _ _ => trivial⟩
  | deliver event | publish event => exact ⟨hears event, descends _⟩
  | act context actions => exact ⟨trivial, descends _⟩
  | putDocument | saveDocument | putFragment | activate | activateAll | check => cases other
  | _ => trivial

/-- An operation leaves a calm system calm. -/
theorem System.Calm.perform (h : s.Calm) (op : Operation) : (op.perform.after s).Calm := by
  cases other : op.isOnDocuments with
  | true =>
    obtain ⟨keyed, -, -, rest⟩ := Operation.prepares_perform other h.sound.source
    rw [rest]
    exact ⟨⟨h.sound.items, keyed⟩, h.alone, h.answered, h.deliveries, h.actions⟩
  | false =>
    have agrees : Pact.free.Agrees s s := fun _ _ _ _ => rfl
    have hrun := Run.twins_answer agrees (Run.announces_publish agrees)
      (fun _ _ _ _ _ => trivial) (Pact.free_admits other) s s (h.inStep rfl)
    rw [Operation.after_perform]
    obtain ⟨u, notices, heq, -, hu⟩ := hrun.after
    rw [heq]
    exact h.of_holds hu

theorem System.Calm.through (h : s.Calm) (ops : List Operation) : (s.through ops).Calm := by
  induction ops generalizing s with
  | nil => exact h
  | cons op rest ih => exact ih (h.perform op)

/-- From every state that a session of a calm system reaches, a list of actions that can tell of
their effects is run to its end, with one outcome for each action, in order. An action that fails
leaves the system that the actions before it have led to as it was, but for what it notes. So the
whole list comes to what those of its actions come to that succeed: run by themselves, they have the
same outcomes, and lead to the same system but for what was noted. -/
theorem failed_actions_do_nothing (calm : s.Calm) (ops : List Operation)
    (announcer : announce = Run.publish ∨ ∃ n, announce = Run.cascade n)
    (context : ActionContext) {actions : List Action} (tells : ∀ action ∈ actions, action.Tells) :
    let start := s.through ops
    ∃ outcomes t, Run.runActions announce context actions start = .ok outcomes t ∧
      outcomes.map (·.action) = actions.map (·.type) ∧
      (∀ before action after, actions = before ++ action :: after → ∃ done u outcome v,
        Run.runActions announce context before start = .ok done u ∧
          Run.runAction announce context action u = .ok outcome v ∧
          outcomes[before.length]? = some outcome ∧
          (outcome.ok = false → v = { u with journal := v.journal })) ∧
      ∃ t', Run.runActions announce context (succeeded actions outcomes) start =
        .ok (outcomes.filter (·.ok)) t' ∧ t' = { t with journal := t'.journal } := by
  intro start
  have hcalm : start.Calm := calm.through ops
  obtain ⟨outcomes, t, hran, -, htypes⟩ := Run.runActions_ok announcer hcalm context tells
  obtain ⟨t', hagain, hsame⟩ := Run.runActions_succeeded announcer hcalm tells hran rfl
  refine ⟨outcomes, t, hran, htypes, ?_, t', hagain, System.eq_of_unnoted hsame⟩
  rintro before action after rfl
  obtain ⟨hbefore, htells⟩ := List.forall_mem_append.1 tells
  obtain ⟨htold, hafter⟩ := List.forall_mem_cons.1 htells
  obtain ⟨done, u, hdone, hu, htypes⟩ := Run.runActions_ok announcer hcalm context hbefore
  obtain ⟨outcome, v, hstep, -, hnothing⟩ := Run.runAction_ok announcer hu context htold
  obtain ⟨more, w, hmore, -⟩ := Run.runActions_ok announcer
    (Run.runAction_unnoted announcer hu hstep).1 context hafter
  have hlater : Run.runActions announce context (action :: after) u = .ok (outcome :: more) w :=
    Run.runActions_cons.2 ⟨outcome, v, more, hstep, hmore, rfl⟩
  have hlength : done.length = before.length := by simpa using congrArg List.length htypes
  cases hran.symm.trans (Run.runActions_append hdone hlater)
  exact ⟨done, u, outcome, v, hdone, hstep, by simp [← hlength],
    fun hfailed => System.eq_of_unnoted (hnothing hfailed)⟩

/-- A notification without a channel, a move, a move back to where the item may not go, and a
notification. -/
def mixedActions : List Action :=
  [⟨.notify, []⟩, ⟨.autoTransition, [("to", .str "B")]⟩, ⟨.rollback, [("to", .str "Z")]⟩,
    ⟨.notify, [("channel", .str "team")]⟩]

/-- What they run in response to. -/
def mixedContext : ActionContext := ⟨"mixed", "i", "t", .moved sampleMove, 0⟩

/-- A system with some settings in which an item is in "A". -/
def enteredWith (settings : Settings) : System := System.through { settings } (enteredSession [])

/-- The first and the third one fail; without them, the item is moved and the notification sent all
the same. -/
theorem failed_actions_do_nothing_mixed :
    ∃ outcomes t t',
      Run.runActions Run.publish mixedContext mixedActions (enteredWith {}) = .ok outcomes t ∧
      outcomes.map (·.ok) = [false, true, false, true] ∧
      Run.runActions Run.publish mixedContext [⟨.autoTransition, [("to", .str "B")]⟩,
        ⟨.notify, [("channel", .str "team")]⟩] (enteredWith {}) = .ok (outcomes.filter (·.ok)) t' ∧
      t' = { t with journal := t'.journal } := by
  have hrun : (Run.runActions Run.publish mixedContext mixedActions).succeeds (enteredWith {})
      fun outcomes _ => decide (outcomes.map (·.ok) = [false, true, false, true]) := by
    decide +kernel
  have calm : ({} : System).Calm :=
    ⟨(System.new_default {}).sound, rfl, nofun, by decide +kernel, by decide +kernel⟩
  have tells : ∀ action ∈ mixedActions, action.Tells := by
    simp [mixedActions, Action.Tells, ActionType.named, Table.get?]
  obtain ⟨outcomes, t, hran, -, -, t', hagain, hsame⟩ :=
    failed_actions_do_nothing calm (enteredSession []) (.inl rfl) mixedContext tells
  obtain ⟨_, _, hran', hok⟩ := Run.succeeds_iff.1 hrun
  cases hran.symm.trans hran'
  have hok := of_decide_eq_true hok
  rw [succeeded, hok] at hagain
  exact ⟨outcomes, t, t', hran, hok, hagain, hsame⟩

/-- An action that cannot be waited for is reported to have failed, though it moves the item; and so
is a notification through a channel that cannot be written, though it is sent. -/
theorem failed_action_done :
    (∃ outcome t, Run.runAction Run.publish mixedContext ⟨.autoTransition, [("to", .str "B")]⟩
        (enteredWith { actionTimeout := .ofQuotient 10000000000 1 }) = .ok outcome t ∧
      outcome.ok = false ∧ (t.items.get? "i").map (·.status) = some "B") ∧
    (∃ outcome t, Run.runAction Run.publish mixedContext ⟨.notify, [("channel", Json.tooLong)]⟩
        (enteredWith {}) = .ok outcome t ∧
      outcome.ok = false ∧ t.records.sent.length = 1) ∧
    ∀ settings ∈ [{ actionTimeout := .ofQuotient 10000000000 1 }, ({} : Settings)],
      ((enteredWith settings).items.get? "i").map (·.status) = some "A" ∧
        (enteredWith settings).records.sent.length = 0 := by
  have hmoved : (Run.runAction Run.publish mixedContext
      ⟨.autoTransition, [("to", .str "B")]⟩).succeeds
        (enteredWith { actionTimeout := .ofQuotient 10000000000 1 }) fun outcome t =>
        decide (outcome.ok = false ∧ (t.items.get? "i").map (·.status) = some "B") := by
    decide +kernel
  have hsent : (Run.runAction Run.publish mixedContext
      ⟨.notify, [("channel", Json.tooLong)]⟩).succeeds (enteredWith {}) fun outcome t =>
        decide (outcome.ok = false ∧ t.records.sent.length = 1) := by
    decide +kernel
  obtain ⟨outcome, t, hran, hmoved⟩ := Run.succeeds_iff.1 hmoved
  obtain ⟨outcome', t', hran', hsent⟩ := Run.succeeds_iff.1 hsent
  exact ⟨⟨outcome, t, hran, of_decide_eq_true hmoved⟩,
    ⟨outcome', t', hran', of_decide_eq_true hsent⟩, by decide +kernel⟩

end Stageflow
