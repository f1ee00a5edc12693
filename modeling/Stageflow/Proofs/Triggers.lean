import Stageflow.Proofs.Regimes.Session
import Stageflow.Proofs.RuleBooks

/-!
# What rules react to

Rules are kept by the type of event that triggers them. Moves and signals share these types, and a
signal is not asked for the status that a rule names as its target. So a rule with the trigger of
moves reacts to moves that fit it, and apart from these to signals that go by the type of moves.
Such a signal can only come from outside.

A watch only keeps the id of its rule. That the rule found by it is the one that was triggered is
known because the rules of a version have different ids.
-/

namespace Stageflow

open Run

/-! ## Reactions -/

/-- The signal that an operation passes on. -/
def Operation.signal? : Operation → Option Signal
  | .ingest signal | .deliver (.signal signal) _ | .publish (.signal signal) => some signal
  | _ => none

/-- Whether a signal goes by the type of moves, and an operation passes it on, if not at that time.
-/
def Operation.Mimics (op : Operation) (signal : Signal) : Prop :=
  signal.type = Rule.transitionTrigger ∧ ∃ time, op.signal? = some { signal with time }

/-- Whether an event is a move, or goes by another type, unless an operation passes it on. -/
def Event.IsPlain (ops : List Operation) : Event → Prop
  | .moved _ => True
  | .signal s => s.type = Rule.transitionTrigger → ∃ op ∈ ops, op.Mimics s

/-- Whether a move fits what a rule says of it: its target if there is one, and its sources. -/
structure Rule.Meets (rule : Rule) (m : Moved) : Prop where
  target : ∀ status, rule.target = some status → m.target = status
  source : rule.sources ≠ [] → ∃ status ∈ rule.sources, m.source = some status

/-- Whether a rule has reason to react to an event for an item, with some operations asked for: the
event was taken in, has the type that triggers the rule, and fits the rule. -/
structure Rule.Reacts (rule : Rule) (ops : List Operation) (event : Event) (item : String)
    (older : List Notice) : Prop where
  handled : .handled event ∈ older
  plain : event.IsPlain ops
  trigger : event.type = rule.trigger
  fits : ∃ status, rule.fits event status
  item : ∀ m, event = .moved m → m.item = item

theorem Rule.meets_of_fits {rule : Rule} {m : Moved} {status : String}
    (h : rule.fits (.moved m) status) : rule.Meets m := by
  obtain ⟨htarget, hsource⟩ := Bool.and_eq_true_iff.1 h
  refine ⟨fun target heq => ?_, fun hne => ?_⟩
  · simp only [heq, Option.all_some, decide_eq_true_eq] at htarget
    exact htarget.symm
  · have hsome := (Bool.or_eq_true_iff.1 hsource).resolve_left (by simpa using hne)
    obtain ⟨status, hstatus, hcontains⟩ := (Option.any_eq_true ..).1 hsome
    exact ⟨status, by simpa using hcontains, hstatus⟩

/-- A rule with the trigger of moves reacts to a move of the item that fits it, or to a signal from
outside that goes by the type of moves. -/
theorem Rule.Reacts.cause {rule : Rule} {ops : List Operation} {event : Event} {item : String}
    {older : List Notice} (h : rule.Reacts ops event item older)
    (trigger : rule.trigger = Rule.transitionTrigger) :
    (∃ m, event = .moved m ∧ m.item = item ∧ rule.Meets m) ∨
      ∃ signal, event = .signal signal ∧ ∃ op ∈ ops, op.Mimics signal := by
  cases event with
  | moved m => exact .inl ⟨m, rfl, h.item m rfl, h.fits.elim fun _ => Rule.meets_of_fits⟩
  | signal signal => exact .inr ⟨signal, rfl, h.plain (h.trigger.trans trigger)⟩

/-- Whether rules run at once, and watches are armed, only with reason. -/
def Notice.Answers (ops : List Operation) (a : Automation) (older : List Notice) : Notice → Prop
  | .ran rule item event => rule.deferred = false → rule.Reacts ops event item older
  | .armed watch => ∃ rule, ruleOf? a watch = some rule ∧ rule.deferred ∧
    rule.Reacts ops watch.trigger watch.item older
  | _ => True

theorem Notice.Answers.later {ops : List Operation} {a a' : Automation} {older : List Notice}
    {notice : Notice}
    (hrules : ∀ watch rule, ruleOf? a watch = some rule → ruleOf? a' watch = some rule)
    (h : notice.Answers ops a older) : notice.Answers ops a' older := by
  cases notice with
  | armed watch =>
    obtain ⟨rule, hrule, hreacts⟩ := h
    exact ⟨rule, hrules watch rule hrule, hreacts⟩
  | _ => exact h

/-! ## The regime of reactions -/

/-- Whether the rules of all versions have different ids. -/
def Registry.IsDistinct (registry : Registry) : Prop :=
  ∀ team version w, registry.version? team version = some w → (w.rules.map (·.id)).Nodup

theorem Registry.IsDistinct.publish {registry : Registry} (h : registry.IsDistinct) {w : Workflow}
    (distinct : (w.rules.map (·.id)).Nodup) : (registry.publish w).IsDistinct :=
  forall_version?_publish distinct h

/-- A watch that a rule has armed finds the rule by its id, where rules have different ids. -/
theorem Run.Trigger.Arms.ruleOf?_eq {a : Automation} {trigger : Trigger} {book : RuleBook}
    {rule : Rule} {watch : Watch} (arms : trigger.Arms rule watch)
    (known : a.rules.get? (trigger.team, trigger.workflowVersion) = some book)
    (distinct : (book.map (·.id)).Nodup) (hmem : rule ∈ book) : ruleOf? a watch = some rule := by
  unfold ruleOf?
  rw [arms.team, arms.workflowVersion, known, Option.bind_some, arms.rule]
  exact RuleBook.rule?_of_mem distinct hmem

/-- A system in which rules have different ids, with a journal that tells of reactions with reason.
-/
structure System.Answers (ops : List Operation) (s : System) : Prop where
  answers : Upholds (fun notice older => notice.Answers ops s.automation older) s.journal
  books : ∀ key book, s.automation.rules.get? key = some book → (book.map (·.id)).Nodup
  versions : s.registry.IsDistinct

/-- No signals go by the type of moves but those that some operations pass on. There is one setting
only. -/
def reacting (ops : List Operation) : Regime Unit where
  holds _ s := s.Answers ops
  hears _ event := event.IsPlain ops
  level _ _ := True
  within _ _ := ()
  during _ _ := ()
  idle _ := True

namespace System.Answers

variable {ops : List Operation} {s t : System} {notice : Notice}

theorem cons (h : s.Answers ops) (hanswers : notice.Answers ops s.automation s.journal) :
    System.Answers ops { s with journal := notice :: s.journal } :=
  ⟨⟨hanswers, h.answers⟩, h.books, h.versions⟩

/-- The rule of an armed watch is deferred. -/
theorem deferred_of_armed (h : s.Answers ops) {watch : Watch} {rule : Rule}
    (armed : .armed watch ∈ s.journal) (hrule : ruleOf? s.automation watch = some rule) :
    rule.deferred := by
  obtain ⟨_, other, hother, hdeferred, -⟩ := h.answers.of_mem armed
  rwa [Option.some.inj (hrule.symm.trans hother)]

/-- The actions of a watch's rule are not those of a rule that runs at once. -/
theorem ran (h : s.Answers ops) {watch : Watch} {rule : Rule} (armed : .armed watch ∈ s.journal)
    (hrule : ruleOf? s.automation watch = some rule) (item : String) (event : Event) :
    System.Answers ops { s with journal := .ran rule item event :: s.journal } := by
  have hdeferred := h.deferred_of_armed armed hrule
  exact h.cons fun himmediate => absurd (hdeferred.symm.trans himmediate) (by decide)

/-- A system with the same notes that knows no fewer rules. -/
theorem follow (h : s.Answers ops) (journal : t.journal = s.journal)
    (rules : ∀ key book, s.automation.rules.get? key = some book →
      t.automation.rules.get? key = some book)
    (books : ∀ key book, t.automation.rules.get? key = some book → (book.map (·.id)).Nodup)
    (versions : t.registry.IsDistinct) : t.Answers ops where
  answers := by
    have hfollows : s.Follows t := ⟨fun _ hn => journal ▸ hn, rules⟩
    rw [journal]
    exact h.answers.mono fun _ _ => Notice.Answers.later fun _ _ => hfollows.ruleOf?
  books := books
  versions := versions

end System.Answers

variable {ops : List Operation} {s : System}

/-- A rule that a trigger is found to fit has reason to react. -/
theorem reacts_of_triggers {trigger : Trigger} {book : RuleBook} {rule : Rule}
    (triggers : (reacting ops).Triggers () s trigger book)
    (type : rule.trigger = trigger.event.type)
    (fits : rule.fits trigger.event trigger.status) :
    rule.Reacts ops trigger.event trigger.item s.journal where
  handled := triggers.handled
  plain := triggers.places.hears
  trigger := type.symm
  fits := ⟨_, fits⟩
  item := by
    cases triggers.places with
    | moved =>
      rintro _ ⟨⟩
      rfl
    | signal => nofun

theorem reacting.lawful : (reacting ops).Lawful where
  beside h hst := h.follow hst.journal (fun _ _ => hst.rules ▸ id) (hst.rules ▸ h.books)
    (hst.registry ▸ h.versions)
  quiet {_ _ notice} hquiet h := h.cons (by cases notice <;> trivial)
  saved _ h _ _ := ⟨⟨trivial, h.answers⟩, h.books, h.versions⟩
  rebound _ _ h _ := ⟨(), trivial, ⟨trivial, h.answers⟩, h.books, h.versions⟩
  created _ _ _ h _ _ _ _ := ⟨(), trivial, trivial, ⟨trivial, h.answers⟩, h.books, h.versions⟩
  committed _ _ h _ _ _ := ⟨trivial, h.cons trivial⟩
  learned h unread hw := h.follow rfl (fun _ _ => Table.get?_put_of_unused unread)
    (Table.forall_get?_put (h.versions _ _ _ hw) fun key book _ => h.books key book) h.versions
  published h _ hmerged hcompiled := h.follow rfl (fun _ _ => id) h.books
    (h.versions.publish (compile_distinct hmerged hcompiled).rules)
  told h _ tells := by
    cases tells <;> exact h.cons trivial
  armed h triggers hrule hfits arms := by
    obtain ⟨hmem, hkind⟩ := List.mem_filter.1 hrule
    obtain ⟨hdeferred, htype⟩ := Bool.and_eq_true_iff.1 hkind
    refine h.cons
      ⟨_, arms.ruleOf?_eq triggers.known (h.books _ _ triggers.known) hmem, hdeferred, ?_⟩
    rw [arms.trigger, arms.item]
    exact reacts_of_triggers triggers (of_decide_eq_true htype) hfits
  served h triggers hrule hfits := by
    obtain ⟨-, hkind⟩ := List.mem_filter.1 hrule
    have htype := (Bool.and_eq_true_iff.1 hkind).2
    exact h.cons fun _ => reacts_of_triggers triggers (of_decide_eq_true htype) hfits
  broken {_ s watch _ signal} h armed hrule _ :=
    have hbroken : System.Answers ops { s with journal := .broken watch signal :: s.journal } :=
      h.cons trivial
    hbroken.ran (List.mem_cons_of_mem _ armed) hrule _ _
  ruleless h _ _ := h.cons trivial
  promoted {_ s watch _ now} _ h armed hrule :=
    have hpromoted : System.Answers ops { s with journal := .promoted watch now :: s.journal } :=
      h.cons trivial
    hpromoted.ran (List.mem_cons_of_mem _ armed) hrule _ _
  fired _ h := h.cons trivial
  began _ h _ := ⟨trivial, h.cons trivial⟩
  ended h := h.cons trivial
  measured _ := trivial
  alerted _ type := by
    intro heq
    rw [type] at heq
    exact absurd heq (by decide)
  stamped _ plain := plain
  ground _ := trivial

/-! ## Sessions -/

theorem Operation.admits_reacting {op : Operation} (hop : op ∈ ops) :
    (reacting ops).Admits () op := by
  cases op with
  | ingest signal => exact fun type => ⟨_, hop, type, signal.time, rfl⟩
  | deliver event _ | publish event =>
    cases event with
    | moved _ => trivial
    | signal signal => exact fun type => ⟨_, hop, type, signal.time, rfl⟩
  | _ => trivial

theorem System.New.answers (new : s.New) (unnoted : s.journal = [])
    (distinct : s.registry.IsDistinct) (unread : s.automation.rules = []) (ops : List Operation) :
    (s.through ops).Answers ops := by
  have hstart : (reacting ops).Stands () s := new.stands
    { answers := by rw [unnoted]; trivial
      books := by simp [unread]
      versions := distinct }
  obtain ⟨_, -, hstands⟩ := Regime.stands_through reacting.lawful
    (fun _ hop _ _ => Operation.admits_reacting hop) trivial hstart
  exact hstands.holds

/-- Whether a notice tells that a rule reacts to an event for an item: its actions are run at once,
or a watch is armed for it. -/
def Notice.Starts (a : Automation) (rule : Rule) (event : Event) (item : String) : Notice → Prop
  | .ran r i e => rule.deferred = false ∧ r = rule ∧ e = event ∧ i = item
  | .armed watch => ruleOf? a watch = some rule ∧ watch.trigger = event ∧ watch.item = item
  | _ => False

theorem Notice.Answers.reacts {a : Automation} {older : List Notice} {notice : Notice} {rule : Rule}
    {event : Event} {item : String} (h : notice.Answers ops a older)
    (starts : notice.Starts a rule event item) : rule.Reacts ops event item older := by
  cases notice with
  | ran r i e =>
    obtain ⟨immediate, rfl, rfl, rfl⟩ := starts
    exact h immediate
  | armed watch =>
    obtain ⟨hrule, rfl, rfl⟩ := starts
    obtain ⟨other, hother, -, hreacts⟩ := h
    rwa [Option.some.inj (hrule.symm.trans hother)]
  | _ => cases starts

/-- Rules with the trigger of moves react to moves: in every session, such a rule has its actions
run at once, or a watch armed, only in response to an event that was taken in, and this is a move of
the item to the target and from the sources that the rule names, unless it is a signal that goes by
the type of moves and that an operation passes on. The rule of each armed watch is known, and it is
deferred. -/
theorem transition_rules_react (new : s.New) (unnoted : s.journal = [])
    (distinct : s.registry.IsDistinct) (unread : s.automation.rules = []) (ops : List Operation) :
    let t := s.through ops
    (∀ watch, .armed watch ∈ t.journal →
      ∃ rule, ruleOf? t.automation watch = some rule ∧ rule.deferred) ∧
      ∀ newer notice older rule event item, t.journal = newer ++ notice :: older →
        notice.Starts t.automation rule event item → rule.trigger = Rule.transitionTrigger →
          .handled event ∈ older ∧
            ((∃ m, event = .moved m ∧ m.item = item ∧ rule.Meets m) ∨
              ∃ signal, event = .signal signal ∧ ∃ op ∈ ops, op.Mimics signal) := by
  intro t
  have hanswers : t.Answers ops := new.answers unnoted distinct unread ops
  refine ⟨fun watch harmed => ?_,
    fun newer notice older rule event item hsplit starts trigger => ?_⟩
  · obtain ⟨_, rule, hrule, hdeferred, -⟩ := hanswers.answers.of_mem harmed
    exact ⟨rule, hrule, hdeferred⟩
  · have hreacts := (hsplit ▸ hanswers.answers).of_split.1.reacts starts
    exact ⟨hreacts.handled, hreacts.cause trigger⟩

/-- The targets that rules with the trigger of moves name, where their actions were run at once,
each with the status that the move led to, if it was a move. -/
def reactions (journal : List Notice) : List (Option String × Option String) :=
  tellings (fun notice _ =>
    match notice with
    | .ran rule _ event =>
      if rule.deferred = false ∧ rule.trigger = Rule.transitionTrigger then
        some (rule.target, match event with
          | .moved m => some m.target
          | .signal _ => none)
      else none
    | _ => none) journal

theorem split_of_reactions {journal : List Notice} {target moved : Option String}
    (h : (target, moved) ∈ reactions journal) : ∃ newer older rule item event,
      journal = newer ++ .ran rule item event :: older ∧ rule.deferred = false ∧
        rule.trigger = Rule.transitionTrigger ∧ rule.target = target ∧
        (match event with
          | .moved m => some m.target
          | .signal _ => none) = moved := by
  obtain ⟨newer, notice, older, hsplit, htell⟩ := split_of_tellings h
  cases notice with
  | ran rule item event =>
    obtain ⟨⟨immediate, trigger⟩, heq⟩ := Option.ite_none_right_eq_some.1 htell
    obtain ⟨rfl, rfl⟩ := Prod.mk.inj (Option.some.inj heq)
    exact ⟨newer, older, rule, item, event, hsplit, immediate, trigger, rfl, rfl⟩
  | _ => cases htell

/-- A rule moves an item on that has entered the status that the rule names. -/
def entered : List Operation :=
  sampleSession [onwardRule "B" "C"] ++
    [.create { team := "t", id := some "i" }, .move "i" (.str "B") {}]

theorem transition_rules_react_entered :
    let t := System.through {} entered
    reactions t.journal = [(some "B", some "B")] ∧
      ∃ (older : List Notice) (rule : Rule) (m : Moved), .handled (.moved m) ∈ older ∧
        rule.Meets m ∧ rule.target = some "B" := by
  intro t
  have hreactions : reactions t.journal = [(some "B", some "B")] := by decide +kernel
  obtain ⟨newer, older, rule, item, event, hsplit, immediate, trigger, htarget, -⟩ :=
    split_of_reactions (hreactions ▸ List.mem_cons_self)
  obtain ⟨handled, ⟨m, rfl, -, meets⟩ | ⟨_, -, op, hop, -, time, hsignal⟩⟩ :=
    (transition_rules_react (System.new_default {}) rfl (fun _ _ _ h => by cases h) rfl entered).2
      newer _ older rule event item hsplit ⟨immediate, rfl, rfl, rfl⟩ trigger
  · exact ⟨hreactions, older, rule, m, handled, meets, htarget⟩
  · have hsilent : ∀ op ∈ entered, op.signal?.isNone := by decide +kernel
    exact absurd (hsilent op hop) (by simp [hsignal])

/-- The same rule, and a signal that goes by the type of moves. -/
def mimicked : List Operation :=
  sampleSession [onwardRule "B" "C"] ++
    [.create { team := "t", id := some "i" }, .ingest { type := "transition", item := some "i" }]

/-- The rule moves an item on that never entered the status that the rule names. -/
theorem mimicked_reacts :
    let t := System.through {} mimicked
    (∃ newer notice older rule signal item, t.journal = newer ++ notice :: older ∧
        notice.Starts t.automation rule (.signal signal) item ∧
        rule.trigger = Rule.transitionTrigger ∧ rule.target = some "B") ∧
      (t.items.get? "i").map (fun item => item.history.map (·.status)) = some ["A", "C"] := by
  intro t
  have hreactions : (some "B", none) ∈ reactions t.journal := by decide +kernel
  obtain ⟨newer, older, rule, item, event, hsplit, immediate, trigger, htarget, hevent⟩ :=
    split_of_reactions hreactions
  refine ⟨?_, by decide +kernel⟩
  cases event with
  | moved m => cases hevent
  | signal signal =>
    exact ⟨newer, _, older, rule, signal, item, hsplit, ⟨immediate, rfl, rfl, rfl⟩, trigger,
      htarget⟩

end Stageflow
