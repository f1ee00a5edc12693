import Stageflow.Proofs.Isolation
import Stageflow.Proofs.Ticks
import Stageflow.Proofs.Triggers

/-!
# The table of watches

A watch only keeps the id of its rule, and rule books are opened one version at a time, while
watches outlive events, migrations and activations. Still the rule of a watch is always found: no
watch is armed but for a rule of a book that is open, books stay open, and the rules of a version
have different ids. So no watch is ever passed over because its rule is missing.

## Main statements

* `founding.lawful` — whatever happens to a system, its watches stay founded.
* `watches_founded` — the watches after a session, and the rules that they stem from.
-/

namespace Stageflow

open Run

/-! ## Founded watches -/

/-- Whether a watch stems from a rule: it has the rule's id, the rule is deferred and triggered by
what armed the watch, and the watch is due the rule's duration after it was armed. -/
structure Watch.StemsFrom (watch : Watch) (rule : Rule) : Prop where
  id : rule.id = watch.rule
  deferred : rule.deferred
  triggered : rule.trigger = watch.trigger.type
  fits : rule.fits watch.trigger watch.status
  due : ∃ seconds span, rule.duration = some seconds ∧ Span.ofSeconds seconds = .ok span ∧
    watch.dueAt = watch.armedAt.shift span

/-- A watch that a trigger arms for a rule stems from it. -/
theorem Run.Trigger.Arms.stemsFrom {trigger : Trigger} {rule : Rule} {watch : Watch}
    (arms : trigger.Arms rule watch) (triggered : rule.trigger = trigger.event.type)
    (fits : rule.fits trigger.event trigger.status) : watch.StemsFrom rule := by
  obtain ⟨seconds, hduration, hdue⟩ := arms.due
  obtain ⟨span, hspan, hadd⟩ := bind_eq_ok.1 hdue
  exact {
    id := arms.rule.symm
    deferred := Option.isSome_iff_exists.2 ⟨seconds, hduration⟩
    triggered := arms.trigger ▸ triggered
    fits := by rwa [arms.trigger, arms.status]
    due := ⟨seconds, span, hduration, hspan, Instant.add_eq_ok hadd⟩ }

/-- Whether events are taken in only down to a depth, watches are armed only for rules that
automation finds by them, and none is passed over. -/
def Notice.Founded (limit : Int) (a : Automation) : Notice → Prop
  | .handled event => event.depth ≤ limit
  | .armed watch => watch.trigger.depth ≤ limit ∧
    ∃ rule, ruleOf? a watch = some rule ∧ watch.StemsFrom rule
  | .ruleless _ => False
  | _ => True

theorem Notice.Founded.later {limit : Int} {a a' : Automation} {notice : Notice}
    (hrules : ∀ watch rule, ruleOf? a watch = some rule → ruleOf? a' watch = some rule)
    (h : notice.Founded limit a) : notice.Founded limit a' := by
  cases notice with
  | armed watch =>
    obtain ⟨hdepth, rule, hrule, hstems⟩ := h
    exact ⟨hdepth, rule, hrules watch rule hrule, hstems⟩
  | _ => exact h

/-- A system with a limit, in which the rules of a version have different ids, and with a journal
that tells of founded watches only. -/
structure System.Founded (limit : Int) (s : System) : Prop where
  limited : s.settings.maxCascadeDepth = limit
  books : ∀ key book, s.automation.rules.get? key = some book → (book.map (·.id)).Nodup
  versions : s.registry.IsDistinct
  notices : ∀ notice ∈ s.journal, notice.Founded limit s.automation

namespace System.Founded

variable {limit : Int} {s t : System} {notice : Notice}

/-- More items and notes. -/
theorem noted (h : s.Founded limit) (items : Items) (notices : List Notice)
    (founded : ∀ notice ∈ notices, notice.Founded limit s.automation) :
    System.Founded limit { s with items, journal := notices ++ s.journal } :=
  { h with notices := List.forall_mem_append.2 ⟨founded, h.notices⟩ }

theorem cons (h : s.Founded limit) (founded : notice.Founded limit s.automation) :
    System.Founded limit { s with journal := notice :: s.journal } :=
  h.noted s.items [notice] (List.forall_mem_singleton.2 founded)

/-- A system that knows no fewer rules. -/
theorem follow (h : s.Founded limit) (settings : t.settings = s.settings)
    (journal : t.journal = s.journal)
    (rules : ∀ key book, s.automation.rules.get? key = some book →
      t.automation.rules.get? key = some book)
    (books : ∀ key book, t.automation.rules.get? key = some book → (book.map (·.id)).Nodup)
    (versions : t.registry.IsDistinct) : t.Founded limit where
  limited := settings ▸ h.limited
  books := books
  versions := versions
  notices notice hnotice := by
    have hfollows : s.Follows t := ⟨fun _ hn => journal ▸ hn, rules⟩
    exact (h.notices notice (journal ▸ hnotice)).later fun _ _ => hfollows.ruleOf?

end System.Founded

/-! ## The regime of founded watches -/

/-- Watches are founded, with a limit of depth. There is one setting only. -/
def founding (limit : Int) : Regime Unit where
  holds _ s := s.Founded limit
  hears _ _ := True
  level _ _ := True
  within _ _ := ()
  during _ _ := ()
  idle _ := True

theorem founding.lawful {limit : Int} : (founding limit).Lawful where
  beside h hst := h.follow hst.settings hst.journal (fun _ _ => hst.rules ▸ id)
    (hst.rules ▸ h.books) (hst.registry ▸ h.versions)
  quiet {_ _ notice} hquiet h := h.cons (by cases notice <;> trivial)
  saved _ h _ _ := h.noted _ [_] (List.forall_mem_singleton.2 trivial)
  rebound _ _ h _ := ⟨(), trivial, h.noted _ [_] (List.forall_mem_singleton.2 trivial)⟩
  created _ _ _ h _ _ _ _ :=
    ⟨(), trivial, trivial, h.noted _ [_] (List.forall_mem_singleton.2 trivial)⟩
  committed _ _ h _ _ _ := ⟨trivial, h.cons trivial⟩
  learned h unread hw := h.follow rfl rfl (fun _ _ => Table.get?_put_of_unused unread)
    (Table.forall_get?_put (h.versions _ _ _ hw) fun key book _ => h.books key book) h.versions
  published h _ hmerged hcompiled := h.follow rfl rfl (fun _ _ => id) h.books
    (h.versions.publish (compile_distinct hmerged hcompiled).rules)
  told h _ tells := by
    cases tells with
    | handled shallow => exact h.cons (h.limited ▸ shallow)
    | delivered | dropped => exact h.cons trivial
  armed h triggers hrule hfits arms := by
    obtain ⟨hmem, hkind⟩ := List.mem_filter.1 hrule
    have htriggered := of_decide_eq_true (Bool.and_eq_true_iff.1 hkind).2
    have hdepth := h.notices _ triggers.handled
    refine h.cons ⟨arms.trigger ▸ hdepth, _, ?_, arms.stemsFrom htriggered hfits⟩
    exact arms.ruleOf?_eq triggers.known (h.books _ _ triggers.known) hmem
  served h _ _ _ := h.cons trivial
  broken h _ _ _ := h.noted _ [_, _] (by simp [Notice.Founded])
  ruleless h armed unknown := by
    obtain ⟨-, rule, hrule, -⟩ := h.notices _ armed
    cases unknown.symm.trans hrule
  promoted _ h _ _ := h.noted _ [_, _] (by simp [Notice.Founded])
  fired _ h := h.cons trivial
  began _ h _ := ⟨trivial, h.cons trivial⟩
  ended h := h.cons trivial
  measured _ := trivial
  alerted _ _ := trivial
  stamped _ _ := trivial
  ground _ := trivial

/-! ## Sessions -/

theorem Operation.admits_founding {limit : Int} (op : Operation) :
    (founding limit).Admits () op := by
  cases op <;> trivial

theorem System.New.founded {s : System} (new : s.New) (unnoted : s.journal = [])
    (distinct : s.registry.IsDistinct) (unread : s.automation.rules = []) (ops : List Operation) :
    (founding s.settings.maxCascadeDepth).Stands () (s.through ops) := by
  have hstart : (founding s.settings.maxCascadeDepth).Stands () s := new.stands
    { limited := rfl
      books := by simp [unread]
      versions := distinct
      notices := by simp [unnoted] }
  obtain ⟨_, -, hstands⟩ := Regime.stands_through founding.lawful
    (fun op _ _ _ => op.admits_founding) trivial hstart
  exact hstands

/-- The table of watches in every session: each watch in it was armed and stands under its own item
and rule, once. Of every watch that was armed, the rule book of its version is open and holds the
rules of that version; the one rule of the watch's id is the rule that the watch stems from, which
is deferred, and whose duration lies between arming and the time that the watch is due; and what
armed it was no deeper than the limit. So no watch is ever passed over for want of its rule. -/
theorem watches_founded {s : System} (new : s.New) (unnoted : s.journal = [])
    (coherent : s.registry.Coherent) (distinct : s.registry.IsDistinct)
    (unread : s.automation.rules = []) (ops : List Operation) :
    let t := s.through ops
    t.automation.watches.keys.Nodup ∧
      (∀ p ∈ t.automation.watches, p.1 = (p.2.item, p.2.rule) ∧ .armed p.2 ∈ t.journal) ∧
      (∀ watch, .armed watch ∈ t.journal → ∃ w rule,
        t.registry.version? watch.team watch.workflowVersion = some w ∧
        t.automation.rules.get? (watch.team, watch.workflowVersion) = some w.rules ∧
        RuleBook.rule? w.rules watch.rule = some rule ∧
        (∀ other ∈ w.rules, other.id = watch.rule → other = rule) ∧
        watch.StemsFrom rule ∧ watch.trigger.depth ≤ t.settings.maxCascadeDepth) ∧
      ∀ watch, .ruleless watch ∉ t.journal := by
  intro t
  have hstands := new.founded unnoted distinct unread ops
  have hfounded : t.Founded s.settings.maxCascadeDepth := hstands.holds
  have attained : t.Attained := attained_through new coherent unread ops
  refine ⟨nodup_watches_through new ops, fun p hp => ⟨?_, hstands.armed p hp⟩,
    fun watch armed => ?_, fun watch => hfounded.notices _⟩
  · exact ((filed_through new ops).watches p hp).symm
  · obtain ⟨depth, rule, hrule, stems⟩ := hfounded.notices _ armed
    obtain ⟨book, hbook, hfound⟩ := Option.bind_eq_some_iff.1 hrule
    obtain ⟨w, hw, rfl⟩ := attained.version hbook
    refine ⟨w, rule, hw, hbook, hfound, fun other hother hid => ?_, stems,
      hfounded.limited.symm ▸ depth⟩
    have hother' := RuleBook.rule?_of_mem (hfounded.books _ _ hbook) hother
    rw [hid, hfound] at hother'
    exact (Option.some.inj hother').symm

/-- An item has entered a status that a deferred rule waits for, and its team has been activated
anew without the rule. -/
def keptWatch : List Operation :=
  sampleSession [waitingRule "B" "C"] ++
    [.create { team := "t", id := some "i" }, .move "i" (.str "B") {}] ++ sampleSession []

/-- The watch of the first version is still in the table, and its rule is found in the book of that
version. -/
theorem watches_founded_kept :
    (System.New {} ∧ ({} : System).registry.Coherent ∧ ({} : System).registry.IsDistinct) ∧
      ∃ t, System.through {} keptWatch = t ∧
        ∃ (watch : Watch) (w : Workflow) (rule : Rule),
          t.automation.watches.values = [watch] ∧ watch.workflowVersion = 1 ∧
          (t.registry.active.get? "t").map (·.version) = some 2 ∧
          t.automation.rules.get? (watch.team, 1) = some w.rules ∧
          RuleBook.rule? w.rules watch.rule = some rule ∧ watch.StemsFrom rule ∧
          ∀ other : Watch, Notice.ruleless other ∉ t.journal := by
  have distinct : ({} : System).registry.IsDistinct := fun _ _ _ h => by cases h
  have hwatches := watches_founded (System.new_default {}) rfl Registry.coherent_empty distinct rfl
    keptWatch
  have hversions :
      (System.through {} keptWatch).automation.watches.values.map (·.workflowVersion) = [1] := by
    decide +kernel
  have hactive :
      ((System.through {} keptWatch).registry.active.get? "t").map (·.version) = some 2 := by
    decide +kernel
  refine ⟨⟨System.new_default {}, Registry.coherent_empty, distinct⟩, _, rfl, ?_⟩
  generalize System.through {} keptWatch = t at hwatches hversions hactive ⊢
  obtain ⟨-, hstored, hfounded, hknown⟩ := hwatches
  obtain ⟨watch, hwatch, hversion⟩ := List.map_eq_singleton_iff.1 hversions
  obtain ⟨p, hp, rfl⟩ := List.mem_map.1 (hwatch ▸ List.mem_singleton_self watch :
    watch ∈ t.automation.watches.values)
  obtain ⟨w, rule, -, hbook, hrule, -, stems, -⟩ := hfounded p.2 (hstored p hp).2
  rw [hversion] at hbook
  exact ⟨p.2, w, rule, hwatch, hversion, hactive, hbook, hrule, stems, hknown⟩

end Stageflow
