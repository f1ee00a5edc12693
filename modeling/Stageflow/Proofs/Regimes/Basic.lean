import Stageflow.Proofs.Actions
import Stageflow.Proofs.Evolution.Moves

/-!
# Regimes

A regime is an invariant of running systems together with a setting in which it holds: the actions
that are in progress, or the versions that items are bound to. It says which events may be taken in
in a setting, and how deep requests may be. `Regime.Lawful` asks that every change of a system keep
it, with what is known where that change is made. What is needed to use those laws one after another
is `Regime.After`: the regime stands, every watch in the table has been armed, and nothing that was
noted or learned is forgotten.
-/

namespace Stageflow

open Run

/-! ## Journals -/

/-- Whether each notice of a journal satisfies a condition on what was noted before it. -/
def Upholds (P : Notice → List Notice → Prop) : List Notice → Prop
  | [] => True
  | notice :: older => P notice older ∧ Upholds P older

theorem Upholds.mono {P Q : Notice → List Notice → Prop} (h : ∀ notice older, P notice older →
    Q notice older) {journal : List Notice} (hj : Upholds P journal) : Upholds Q journal := by
  induction journal with
  | nil => trivial
  | cons notice older ih => exact ⟨h notice older hj.1, ih hj.2⟩

/-- What was noted satisfies the condition on what was noted before it. -/
theorem Upholds.of_split {P : Notice → List Notice → Prop} {newer older : List Notice}
    {notice : Notice} (h : Upholds P (newer ++ notice :: older)) :
    P notice older ∧ Upholds P older := by
  induction newer with
  | nil => exact h
  | cons _ _ ih => exact ih h.2

theorem Upholds.of_mem {P : Notice → List Notice → Prop} {journal : List Notice} {notice : Notice}
    (h : Upholds P journal) (hmem : notice ∈ journal) : ∃ older, P notice older := by
  obtain ⟨newer, older, rfl⟩ := List.append_of_mem hmem
  exact ⟨older, h.of_split.1⟩

/-- What is told by the notices of a journal, each with what was noted before it. -/
def tellings {α : Type} (tell : Notice → List Notice → Option α) : List Notice → List α
  | [] => []
  | notice :: older => (tell notice older).toList ++ tellings tell older

theorem split_of_tellings {α : Type} {tell : Notice → List Notice → Option α}
    {journal : List Notice} {a : α} (h : a ∈ tellings tell journal) :
    ∃ newer notice older, journal = newer ++ notice :: older ∧ tell notice older = some a := by
  induction journal with
  | nil => cases h
  | cons notice older ih =>
    obtain hhere | hthere := List.mem_append.1 h
    · exact ⟨[], notice, older, rfl, Option.mem_toList.1 hhere⟩
    · obtain ⟨newer, notice', older', hsplit, htell⟩ := ih hthere
      exact ⟨notice :: newer, notice', older', by rw [hsplit, List.cons_append], htell⟩

/-- Whether a notice is of no concern to regimes. -/
def Notice.isQuiet : Notice → Bool
  | .created _ | .committed .. | .saved _ | .delivered .. | .handled _ | .dropped .. | .armed _
  | .promoted .. | .fired _ | .broken .. | .ruleless _ | .ran .. | .began .. | .ended .. => false
  | _ => true

/-- What is noted of an event that is told of: it is delivered, it is taken in, or it is dropped
because it is deeper than the limit. -/
inductive Notice.Tells (limit : Int) (event : Event) : Notice → Prop
  | delivered (subscriber : Subscriber) : Tells limit event (.delivered subscriber event)
  | handled (shallow : event.depth ≤ limit) : Tells limit event (.handled event)
  | dropped (deep : limit < event.depth) : Tells limit event (.dropped event limit)

/-- What becomes of a source that is left alone, or that a document or a fragment is stored in. -/
inductive Source.Edited (source : Source) : Source → Prop
  | same : Edited source source
  | document {raw : Json} {document : TeamDocument} (read : TeamDocument.parse raw = .ok document) :
    Edited source (source.putDocument document)
  | fragment (name : String) (fragment : Json) : Edited source (source.putFragment name fragment)

namespace System

/-- Whether two systems have the same settings, versions of workflows, items, rule books and notes,
and the same documents but for an edit. -/
structure Beside (s t : System) : Prop where
  settings : t.settings = s.settings
  source : s.source.Edited t.source
  registry : t.registry = s.registry
  items : t.items = s.items
  rules : t.automation.rules = s.automation.rules
  journal : t.journal = s.journal

/-- Whether a system knows all that an earlier one had noted and learned. -/
structure Follows (s t : System) : Prop where
  journal : ∀ notice ∈ s.journal, notice ∈ t.journal
  rules : ∀ key book, s.automation.rules.get? key = some book →
    t.automation.rules.get? key = some book

namespace Follows

variable {r s t : System}

theorem refl (s : System) : s.Follows s := ⟨fun _ h => h, fun _ _ h => h⟩

theorem trans (h : r.Follows s) (ht : s.Follows t) : r.Follows t :=
  ⟨fun notice hn => ht.journal notice (h.journal notice hn),
    fun key book hbook => ht.rules key book (h.rules key book hbook)⟩

/-- The rule of a watch stays its rule. -/
theorem ruleOf? (h : s.Follows t) {watch : Watch} {rule : Rule}
    (hrule : Run.ruleOf? s.automation watch = some rule) :
    Run.ruleOf? t.automation watch = some rule := by
  obtain ⟨book, hbook, hfound⟩ := Option.bind_eq_some_iff.1 hrule
  exact Option.bind_eq_some_iff.2 ⟨book, h.rules _ _ hbook, hfound⟩

end Follows

end System

/-- What is known of a watch that a trigger arms for a rule. -/
structure Run.Trigger.Arms (trigger : Trigger) (rule : Rule) (watch : Watch) : Prop where
  due : ∃ seconds, rule.duration = some seconds ∧
    (Span.ofSeconds seconds >>= watch.armedAt.add) = .ok watch.dueAt
  item : watch.item = trigger.item
  team : watch.team = trigger.team
  rule : watch.rule = rule.id
  workflowVersion : watch.workflowVersion = trigger.workflowVersion
  status : watch.status = trigger.status
  trigger : watch.trigger = trigger.event

/-- An invariant of systems in a setting, the events that may be taken in and the depths at which
may be asked in that setting, the setting within an action, the setting while a watch is promoted,
and whether nothing is in progress. -/
structure Regime (κ : Type) where
  holds : κ → System → Prop
  hears : κ → Event → Prop
  level : κ → Int → Prop
  within : κ → ActionContext → κ
  during : κ → Watch → κ
  idle : κ → Prop

namespace Regime

variable {κ : Type} (R : Regime κ)

/-- What may trigger rules: a move that may be taken in, or a signal about a stored item. -/
inductive Places (k : κ) : Trigger → Prop
  | moved {m : Moved} (heard : R.hears k (.moved m)) :
      Places k ⟨.moved m, m.item, m.team, m.target, m.workflowVersion⟩
  | signal {signal : Signal} {item : Item} {s : System} (heard : R.hears k (.signal signal))
      (holds : R.holds k s) (stored : s.items.get? item.id = some item) :
      Places k ⟨.signal signal, item.id, item.team, item.status, item.workflowVersion⟩

variable {R} in
theorem Places.hears {k : κ} {trigger : Trigger} (h : R.Places k trigger) :
    R.hears k trigger.event := by
  cases h with
  | moved heard => exact heard
  | signal heard _ _ => exact heard

/-- A trigger that is being taken in, and the rules that it may trigger. -/
structure Triggers (k : κ) (s : System) (trigger : Trigger) (book : RuleBook) : Prop where
  places : R.Places k trigger
  handled : .handled trigger.event ∈ s.journal
  known : s.automation.rules.get? (trigger.team, trigger.workflowVersion) = some book

/-- What actions may run in response to: an event that may be taken in, the trigger of a watch that
is being promoted, or a request from outside. -/
inductive Licensed (k : κ) (context : ActionContext) : Prop
  | heard (heard : R.hears k context.event) (depth : context.depth = context.event.depth)
  | promoted {outside : κ} {watch : Watch} (idle : R.idle outside)
      (setting : k = R.during outside watch) (depth : context.depth = watch.trigger.depth)
  | requested (idle : R.idle k) (level : R.level k context.depth)

/-- What a regime has to satisfy: each change of a system keeps it, and what is caused in a setting
may be taken in there. -/
structure Lawful : Prop where
  beside {k s t} : R.holds k s → s.Beside t → R.holds k t
  quiet {k s notice} : Notice.isQuiet notice → R.holds k s →
    R.holds k { s with journal := notice :: s.journal }
  saved {k s old} (new : Item) : R.holds k s → s.items.get? new.id = some old →
    new.workflowVersion = old.workflowVersion → R.holds k (s.write new)
  rebound {k s old} (new : Item) : R.idle k → R.holds k s → s.items.get? new.id = some old →
    ∃ k', R.idle k' ∧ R.holds k' (s.write new)
  created {k s} (item : Item) (m : Moved) : R.idle k → R.holds k s → R.level k m.depth →
    s.items.get? item.id = none → m.item = item.id → m.workflowVersion = item.workflowVersion →
    ∃ k', R.idle k' ∧ R.hears k' (.moved m) ∧ R.holds k' { s with
      items := s.items.put item.id item, journal := .created m :: s.journal }
  committed {k s stored} (item : Item) (m : Moved) : R.holds k s → R.level k m.depth →
    s.items.get? m.item = some stored → m.workflowVersion = stored.workflowVersion →
    R.hears k (.moved m) ∧ R.holds k { s with journal := .committed item m :: s.journal }
  learned {k s team version} {w : Workflow} : R.holds k s →
    s.automation.rules.get? (team, version) = none →
    s.registry.version? team version = some w → R.holds k { s with
      automation := { s.automation with
        rules := s.automation.rules.put (team, version) w.rules } }
  published {k s} {team : String} {document : TeamDocument} {merged : MergedDocument}
    {w : Workflow} : R.holds k s → s.source.document? team = some document →
    s.source.resolve document = .ok merged → merged.compile w.version = .ok w →
    R.holds k { s with registry := s.registry.publish w }
  told {k s event} {notice : Notice} : R.holds k s → R.hears k event →
    notice.Tells s.settings.maxCascadeDepth event →
    R.holds k { s with journal := notice :: s.journal }
  armed {k s trigger book rule watch} : R.holds k s → R.Triggers k s trigger book →
    rule ∈ RuleBook.deferred book trigger.event.type → rule.fits trigger.event trigger.status →
    trigger.Arms rule watch → R.holds k { s with journal := .armed watch :: s.journal }
  served {k s trigger book rule} : R.holds k s → R.Triggers k s trigger book →
    rule ∈ RuleBook.immediate book trigger.event.type → rule.fits trigger.event trigger.status →
    R.holds k { s with journal := .ran rule trigger.item trigger.event :: s.journal }
  broken {k s watch rule signal} : R.holds k s → .armed watch ∈ s.journal →
    ruleOf? s.automation watch = some rule → R.hears k (.signal signal) → R.holds k { s with
      journal := .ran rule watch.item (.signal signal) :: .broken watch signal :: s.journal }
  ruleless {k s watch} : R.holds k s → .armed watch ∈ s.journal →
    ruleOf? s.automation watch = none →
    R.holds k { s with journal := .ruleless watch :: s.journal }
  promoted {k s watch rule now} : R.idle k → R.holds k s → .armed watch ∈ s.journal →
    ruleOf? s.automation watch = some rule → R.holds (R.during k watch) { s with
      journal := .ran rule watch.item watch.trigger :: .promoted watch now :: s.journal }
  fired {k s watch} : R.idle k → R.holds (R.during k watch) s →
    R.holds k { s with journal := .fired watch :: s.journal }
  began {k s context} (action : ActionType) : R.holds k s → R.Licensed k context →
    R.level (R.within k context) (context.depth + 1) ∧ R.holds (R.within k context) { s with
      journal := .began action context.rule context.depth :: s.journal }
  ended {k s context action} : R.holds (R.within k context) s →
    R.holds k { s with journal := .ended action context.rule :: s.journal }
  measured {k m} : R.hears k (.moved m) → R.level k m.depth
  alerted {k} {alert : Signal} : R.level k alert.depth → alert.type = "metric_alert" →
    R.hears k (.signal alert)
  stamped {k signal} (time : Option Instant) : R.hears k (.signal signal) →
    R.hears k (.signal { signal with time })
  ground {k} : R.idle k → R.level k 0

/-- A regime that stands in a system: every item is stored under its id, and every watch in the
table has been armed. -/
structure Stands (k : κ) (s : System) : Prop where
  holds : R.holds k s
  keyed : ∀ id item, s.items.get? id = some item → item.id = id
  armed : ∀ p ∈ s.automation.watches, .armed p.2 ∈ s.journal

/-- A regime that stands after an earlier system. -/
structure After (k : κ) (s t : System) : Prop where
  stands : R.Stands k t
  follows : s.Follows t

/-- A regime that stands between operations, in some setting. -/
def Rests (s t : System) : Prop := ∃ k, R.idle k ∧ R.After k s t

/-- Announcing what may be taken in keeps the regime standing. -/
def Announces (announce : Event → Run Unit) : Prop :=
  ∀ k s₀ event, R.hears k event → Keeps (R.After k s₀) (announce event)

variable {R} {k k' : κ} {s₀ s t : System}

theorem After.refl (h : R.Stands k s) : R.After k s s := ⟨h, .refl s⟩

theorem After.trans (h : R.After k s₀ s) (ht : R.After k' s t) : R.After k' s₀ t :=
  ⟨ht.stands, h.follows.trans ht.follows⟩

/-- What was armed before is armed, and what triggered rules still does. -/
theorem Triggers.later {trigger : Trigger} {book : RuleBook} (h : R.Triggers k s trigger book)
    (ht : s.Follows t) : R.Triggers k t trigger book :=
  ⟨h.places, ht.journal _ h.handled, ht.rules _ _ h.known⟩

/-- Notes that the regime takes, in whatever setting they lead to. -/
theorem After.noted (h : R.After k s₀ s) (notices : List Notice)
    (holds : R.holds k' { s with journal := notices ++ s.journal }) :
    R.After k' s₀ { s with journal := notices ++ s.journal } where
  stands := ⟨holds, h.stands.keyed, fun p hp =>
    List.mem_append_right _ (h.stands.armed p hp)⟩
  follows := ⟨fun notice hn => List.mem_append_right _ (h.follows.journal notice hn),
    h.follows.rules⟩

section

variable (lawful : R.Lawful)
include lawful

theorem After.quiet (h : R.After k s₀ s) {notice : Notice} (hquiet : notice.isQuiet) :
    R.After k s₀ { s with journal := notice :: s.journal } :=
  h.noted [notice] (lawful.quiet hquiet h.stands.holds)

/-- A change beside the regime that puts no watch into the table. -/
theorem After.beside (h : R.After k s₀ s) (hst : s.Beside t)
    (watches : ∀ p ∈ t.automation.watches, p ∈ s.automation.watches) : R.After k s₀ t where
  stands := ⟨lawful.beside h.stands.holds hst, hst.items ▸ h.stands.keyed, fun p hp =>
    hst.journal ▸ h.stands.armed p (watches p hp)⟩
  follows := ⟨hst.journal ▸ h.follows.journal, hst.rules ▸ h.follows.rules⟩

theorem After.told (h : R.After k s₀ s) {event : Event} {notice : Notice} (heard : R.hears k event)
    (htells : notice.Tells s.settings.maxCascadeDepth event) :
    R.After k s₀ { s with journal := notice :: s.journal } :=
  h.noted [notice] (lawful.told h.stands.holds heard htells)

theorem keeps_note {notice : Notice} (h : notice.isQuiet) : Keeps (R.After k s₀) (note notice) :=
  .modify fun _ hs => hs.quiet lawful h

/-- A computation that changes nothing that a regime depends on. -/
theorem keeps_modify {change : System → System} (beside : ∀ s : System, s.Beside (change s))
    (watches : ∀ s, (change s).automation.watches = s.automation.watches) :
    Keeps (R.After k s₀) (modify change : Run PUnit) :=
  .modify fun s hs => hs.beside lawful (beside s) fun _ hp => watches s ▸ hp

theorem keeps_forM_note {α : Type} {f : α → Notice} {xs : List α}
    (h : ∀ x, (f x).isQuiet) : Keeps (R.After k s₀) (xs.forM fun x => note (f x)) :=
  .forM fun x _ => keeps_note lawful (h x)

end

/-- What a computation leads to, seen from an earlier system. -/
theorem After.reroot {α : Type} {action : Run α} (h : R.After k s₀ s)
    (ht : Leads (R.After k s) action t fun _ u => R.After k s u) :
    Leads (R.After k s₀) action t fun _ u => R.After k s₀ u :=
  (ht.weaken fun _ hu => h.trans hu).mono fun _ _ hu => h.trans hu

/-- A computation that is run later on. -/
theorem After.run {α : Type} {action : Run α} (h : R.After k s₀ s)
    (hs : Keeps (R.After k s) action) : Leads (R.After k s₀) action s fun _ t => R.After k s₀ t :=
  h.reroot (hs s (.refl h.stands))

end Regime

end Stageflow
