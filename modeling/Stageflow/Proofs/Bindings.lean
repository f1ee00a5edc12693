import Stageflow.Proofs.Regimes.Session
import Stageflow.Proofs.RuleBooks

/-!
# Versions of watches

A watch has the version that its item was bound to when it was armed, and its rule is that of this
version as long as the watch stands. Whenever the rule acts, because the watch is promoted or
broken, the item is bound to that version, unless it was bound to another one meanwhile.
-/

namespace Stageflow

open Run

/-! ## Bindings in a journal -/

/-- The version that a notice binds an item to. -/
def Notice.binding? (id : String) : Notice → Option Int
  | .saved item => if item.id = id then some item.workflowVersion else none
  | .created m => if m.item = id then some m.workflowVersion else none
  | _ => none

/-- The version that an item is bound to, told from a journal. -/
def boundIn (journal : List Notice) (id : String) : Option Int :=
  journal.findSome? (Notice.binding? id)

theorem boundIn_cons (notice : Notice) (older : List Notice) (id : String) :
    boundIn (notice :: older) id = (notice.binding? id).or (boundIn older id) := by
  unfold boundIn
  rw [List.findSome?_cons]
  cases notice.binding? id <;> rfl

/-- An item stays bound where no notice binds it to another version. -/
theorem boundIn_append {since older : List Notice} {id : String} {version : Int}
    (holder : boundIn older id = some version)
    (kept : ∀ notice ∈ since, ∀ v, notice.binding? id = some v → v = version) :
    boundIn (since ++ older) id = some version := by
  induction since with
  | nil => exact holder
  | cons notice since ih =>
    obtain ⟨hnotice, hsince⟩ := List.forall_mem_cons.1 kept
    rw [List.cons_append, boundIn_cons, ih hsince]
    cases hbinding : notice.binding? id with
    | none => rfl
    | some v => rw [hnotice v hbinding, Option.some_or]

/-- The watch whose rule acts, where a notice tells of that. -/
def Notice.acts? : Notice → Option Watch
  | .promoted watch _ | .broken watch _ => some watch
  | _ => none

/-- Whether watches are armed with the version that their item is bound to, and act only when they
were armed and have their rule. -/
def Notice.Binds (a : Automation) (older : List Notice) : Notice → Prop
  | .armed watch => boundIn older watch.item = some watch.workflowVersion
  | .promoted watch _ | .broken watch _ =>
    .armed watch ∈ older ∧ ∃ rule, ruleOf? a watch = some rule
  | _ => True

theorem Notice.Binds.later {a a' : Automation} {older : List Notice} {notice : Notice}
    (hrules : ∀ watch rule, ruleOf? a watch = some rule → ruleOf? a' watch = some rule)
    (h : notice.Binds a older) : notice.Binds a' older := by
  cases notice with
  | promoted watch _ | broken watch _ =>
    exact ⟨h.1, h.2.imp fun rule => hrules watch rule⟩
  | _ => exact h

theorem Notice.Binds.of_acts {a : Automation} {older : List Notice} {notice : Notice}
    (h : notice.Binds a older) {watch : Watch} (acts : notice.acts? = some watch) :
    .armed watch ∈ older ∧ ∃ rule, ruleOf? a watch = some rule := by
  cases notice <;> cases acts <;> exact h

/-! ## The regime of versions -/

/-- A system whose items are bound as the journal tells, with a journal in which watches act as
bound. -/
structure System.Bound (bindings : String → Option Int) (s : System) : Prop where
  journal : boundIn s.journal = bindings
  items : ∀ id, (s.items.get? id).map (·.workflowVersion) = bindings id
  binds : Upholds (fun notice older => notice.Binds s.automation older) s.journal

/-- In the setting of the versions that items are bound to, moves are those of items so bound. -/
def binding : Regime (String → Option Int) where
  holds := System.Bound
  hears bindings
    | .moved m => bindings m.item = some m.workflowVersion
    | .signal _ => True
  level _ _ := True
  within bindings _ := bindings
  during bindings _ := bindings
  idle _ := True

namespace System.Bound

variable {bindings : String → Option Int} {s : System} {notice : Notice}

/-- A notice that binds no item. -/
theorem cons (h : s.Bound bindings) (hbinding : ∀ id, notice.binding? id = none)
    (hbinds : notice.Binds s.automation s.journal) :
    System.Bound bindings { s with journal := notice :: s.journal } where
  journal := by
    funext id
    rw [boundIn_cons, hbinding, h.journal, Option.none_or]
  items := h.items
  binds := ⟨hbinds, h.binds⟩

/-- A watch that was armed acts, with its rule at hand. -/
theorem acted (h : s.Bound bindings) {watch : Watch} {rule : Rule}
    (acts : notice.acts? = some watch) (armed : .armed watch ∈ s.journal)
    (hrule : ruleOf? s.automation watch = some rule) :
    System.Bound bindings { s with journal := notice :: s.journal } := by
  refine h.cons (fun id => ?_) ?_
  · cases notice <;> cases acts <;> rfl
  · cases notice <;> cases acts <;> exact ⟨armed, rule, hrule⟩

theorem quiet (h : s.Bound bindings) (hquiet : notice.isQuiet) :
    System.Bound bindings { s with journal := notice :: s.journal } := by
  refine h.cons (fun id => ?_) ?_
  · cases notice <;> first | rfl | cases hquiet
  · cases notice <;> trivial

/-- A stored item is bound to the version that was noted. -/
theorem bound_of_stored (h : s.Bound bindings) {id : String} {item : Item}
    (stored : s.items.get? id = some item) : bindings id = some item.workflowVersion := by
  rw [← h.items id, stored, Option.map_some]

/-- An item is stored, with a notice of the version that it is bound to. -/
theorem put (h : s.Bound bindings) (item : Item) (hbinding : ∀ id, notice.binding? id =
      if item.id = id then some item.workflowVersion else none)
    (hbinds : notice.Binds s.automation s.journal) :
    System.Bound (boundIn (notice :: s.journal)) { s with
      items := s.items.put item.id item, journal := notice :: s.journal } where
  journal := rfl
  items id := by
    rw [boundIn_cons, hbinding, h.journal, Table.get?_put]
    by_cases hid : item.id = id
    · simp [hid]
    · simp [hid, Ne.symm hid, h.items]
  binds := ⟨hbinds, h.binds⟩

/-- A write that leaves an item bound as it is. -/
theorem write (h : s.Bound bindings) {old : Item} (new : Item)
    (stored : s.items.get? new.id = some old)
    (version : new.workflowVersion = old.workflowVersion) :
    (s.write new).Bound bindings := by
  have hsame : boundIn (.saved new :: s.journal) = bindings := by
    funext id
    rw [boundIn_cons, h.journal]
    by_cases hid : new.id = id
    · rw [← hid, h.bound_of_stored stored, ← version]
      simp [Notice.binding?]
    · simp [Notice.binding?, hid]
  exact hsame ▸ h.put new (fun _ => rfl) trivial

/-- A system with the same items and notes that knows no fewer rules. -/
theorem follow {t : System} (h : s.Bound bindings) (items : t.items = s.items)
    (journal : t.journal = s.journal) (rules : ∀ key book, s.automation.rules.get? key = some book →
      t.automation.rules.get? key = some book) : t.Bound bindings where
  journal := by rw [journal, h.journal]
  items := items ▸ h.items
  binds := by
    have hfollows : s.Follows t := ⟨fun _ hn => journal ▸ hn, rules⟩
    rw [journal]
    exact h.binds.mono fun _ _ => Notice.Binds.later fun _ _ => hfollows.ruleOf?

/-- What triggers a rule is bound to the version that the rule is of. -/
theorem bound_of_places (h : s.Bound bindings) {trigger : Trigger}
    (places : binding.Places bindings trigger) :
    boundIn s.journal trigger.item = some trigger.workflowVersion := by
  rw [h.journal]
  cases places with
  | moved heard => exact heard
  | signal _ holds stored => exact bound_of_stored holds stored

end System.Bound

theorem binding.lawful : binding.Lawful where
  beside h hst := h.follow hst.items hst.journal fun _ _ => hst.rules ▸ id
  quiet hquiet h := h.quiet hquiet
  saved new h stored version := h.write new stored version
  rebound new _ h _ := ⟨_, trivial, h.put new (fun _ => rfl) trivial⟩
  created item m _ h _ _ hitem hversion := by
    refine ⟨boundIn (.created m :: _), trivial, ?_, h.put item (fun id => ?_) trivial⟩
    · change boundIn _ m.item = _
      rw [boundIn_cons]
      simp [Notice.binding?]
    · rw [← hitem, ← hversion]
      rfl
  committed _ m h _ stored version := by
    refine ⟨?_, h.cons (fun _ => rfl) trivial⟩
    exact (h.bound_of_stored stored).trans (congrArg some version.symm)
  learned h unread _ := h.follow rfl rfl fun _ _ => Table.get?_put_of_unused unread
  published h _ _ _ := h.follow rfl rfl fun _ _ => id
  told h _ tells := by
    cases tells <;> exact h.cons (fun _ => rfl) trivial
  armed h triggers _ _ arms := by
    refine h.cons (fun _ => rfl) ?_
    have hbound := h.bound_of_places triggers.places
    rwa [← arms.item, ← arms.workflowVersion] at hbound
  served h _ _ _ := h.cons (fun _ => rfl) trivial
  broken {_ s watch _ signal} h armed rule _ :=
    have hacted : System.Bound _ { s with journal := .broken watch signal :: s.journal } :=
      h.acted rfl armed rule
    hacted.cons (fun _ => rfl) trivial
  ruleless h _ _ := h.cons (fun _ => rfl) trivial
  promoted {k s watch _ now} _ h armed rule :=
    have hacted : System.Bound k { s with journal := .promoted watch now :: s.journal } :=
      h.acted rfl armed rule
    hacted.cons (fun _ => rfl) trivial
  fired {k s _} _ h :=
    have hbound : s.Bound k := h
    hbound.cons (fun _ => rfl) trivial
  began _ h _ := ⟨trivial, h.cons (fun _ => rfl) trivial⟩
  ended h := h.cons (fun _ => rfl) trivial
  measured _ := trivial
  alerted _ _ := trivial
  stamped _ _ := trivial
  ground _ := trivial

theorem Operation.admits_binding {op : Operation} (unforged : op.isUnforged)
    {bindings : String → Option Int} : binding.Admits bindings op := by
  cases op with
  | deliver event _ | publish event =>
    cases event with
    | moved m => cases unforged
    | signal _ => trivial
  | _ => trivial

/-! ## Sessions -/

variable {s : System} {ops : List Operation}

theorem System.New.bound (new : s.New) (unnoted : s.journal = [])
    (unforged : ∀ op ∈ ops, op.isUnforged) :
    ∃ bindings, (s.through ops).Bound bindings := by
  have hstart : binding.Stands (fun _ => none) s := new.stands
    { journal := by rw [unnoted]; rfl
      items := by simp [new.items]
      binds := by rw [unnoted]; trivial }
  obtain ⟨bindings, -, hstands⟩ := Regime.stands_through binding.lawful
    (fun op hop _ _ => op.admits_binding (unforged op hop)) trivial hstart
  exact ⟨bindings, hstands.holds⟩

/-- Watches act as their items were bound: in every session, whenever the rule of a watch acts, the
watch was armed with the version that its item was bound to, the rule is one of that version, and
the item is bound to that version still, unless it was bound to another one since. What items are
bound to is told by the journal. -/
theorem watches_act_bound (new : s.New) (unnoted : s.journal = []) (coherent : s.registry.Coherent)
    (unread : s.automation.rules = []) (unforged : ∀ op ∈ ops, op.isUnforged) :
    let t := s.through ops
    (∀ id, (t.items.get? id).map (·.workflowVersion) = boundIn t.journal id) ∧
      ∀ newer notice older watch, t.journal = newer ++ notice :: older →
        notice.acts? = some watch → ∃ since rest w rule,
          older = since ++ .armed watch :: rest ∧ .armed watch ∉ since ∧
          boundIn rest watch.item = some watch.workflowVersion ∧
          t.registry.version? watch.team watch.workflowVersion = some w ∧
          RuleBook.rule? w.rules watch.rule = some rule ∧
          ((∀ n ∈ since, ∀ v, n.binding? watch.item = some v → v = watch.workflowVersion) →
            boundIn older watch.item = some watch.workflowVersion) := by
  intro t
  obtain ⟨bindings, hbound⟩ := new.bound unnoted unforged
  refine ⟨fun id => by rw [hbound.items, hbound.journal], ?_⟩
  intro newer notice older watch hsplit acts
  have hbinds : Upholds (fun n older => n.Binds t.automation older) (newer ++ notice :: older) :=
    hsplit ▸ hbound.binds
  obtain ⟨hacts, holder⟩ := hbinds.of_split
  obtain ⟨armed, rule, hrule⟩ := hacts.of_acts acts
  obtain ⟨w, hw, hfound⟩ := (attained_through new coherent unread ops).rule hrule
  -- The watch may have been armed more than once: what counts is the last time.
  obtain ⟨since, rest, rfl, hlatest⟩ := List.eq_append_cons_of_mem armed
  have harmed : boundIn rest watch.item = some watch.workflowVersion := holder.of_split.1
  refine ⟨since, rest, w, rule, rfl, hlatest, harmed, hw, hfound, fun kept => ?_⟩
  exact boundIn_append (harmed : boundIn (.armed watch :: rest) watch.item = _) kept

/-- The versions of the watches whose rules acted, each with the version that the item was bound to.
-/
def actings (journal : List Notice) : List (Int × Option Int) :=
  tellings (fun notice older => notice.acts?.map fun watch =>
    (watch.workflowVersion, boundIn older watch.item)) journal

theorem split_of_actings {journal : List Notice} {version : Int} {bound : Option Int}
    (h : (version, bound) ∈ actings journal) : ∃ newer notice older watch,
      journal = newer ++ notice :: older ∧ notice.acts? = some watch ∧
        watch.workflowVersion = version ∧ boundIn older watch.item = bound := by
  obtain ⟨newer, notice, older, hsplit, htell⟩ := split_of_tellings h
  obtain ⟨watch, hwatch, heq⟩ := Option.map_eq_some_iff.1 htell
  obtain ⟨rfl, rfl⟩ := Prod.mk.inj heq
  exact ⟨newer, notice, older, watch, hsplit, hwatch, rfl, rfl⟩

/-- A watch is armed, and a version without its rule is activated. -/
def outdated : List Operation :=
  sampleSession [waitingRule "B" "C"] ++
    [.create { team := "t", id := some "i" }, .move "i" (.str "B") {}] ++ sampleSession []

theorem watches_act_bound_outdated :
    let t := System.through {} (outdated ++ [.advance (.int 4000), .tick none])
    actings t.journal = [(1, some 1)] ∧
      ∃ (older : List Notice) (watch : Watch) (w : Workflow) (rule : Rule),
        boundIn older watch.item = some 1 ∧
          t.registry.version? watch.team watch.workflowVersion = some w ∧
          RuleBook.rule? w.rules watch.rule = some rule := by
  intro t
  have hactings : actings t.journal = [(1, some 1)] := by decide +kernel
  obtain ⟨newer, notice, older, watch, hsplit, hwatch, -, hbound⟩ :=
    split_of_actings (hactings ▸ List.mem_cons_self)
  obtain ⟨since, rest, w, rule, -, -, -, hw, hrule, -⟩ :=
    (watches_act_bound (System.new_default {}) rfl Registry.coherent_empty rfl
      (fun op hop => by revert op; decide +kernel)).2 newer notice older watch hsplit hwatch
  exact ⟨hactings, older, watch, w, rule, hbound, hw, hrule⟩

/-- The item is bound to the new version, which has no rule, and the watch is promoted all the same.
-/
theorem outdated_acts :
    let t := System.through {}
      (outdated ++ [.migrate "i" none, .advance (.int 4000), .tick none])
    (∃ newer notice older watch, t.journal = newer ++ notice :: older ∧
        notice.acts? = some watch ∧ watch.workflowVersion = 1 ∧
        boundIn older watch.item = some 2) ∧
      (t.registry.version? "t" 2).map (·.rules.length) = some 0 ∧
      (t.items.get? "i").map (fun item => (item.workflowVersion, item.status)) = some (2, "C") := by
  intro t
  have hactings : actings t.journal = [(1, some 2)] := by decide +kernel
  exact ⟨split_of_actings (hactings ▸ List.mem_cons_self), by decide +kernel, by decide +kernel⟩

end Stageflow
