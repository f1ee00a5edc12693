import Stageflow.Proofs.Actions
import Stageflow.Proofs.Applied
import Stageflow.Proofs.Evolution.Session
import Stageflow.Proofs.Tables

/-!
# Items are isolated from each other

`System.part` is all that a system has of one item. What is done about another item leaves it as it
is: every change of a shared table is under the key of the item that an event is about, and what an
event causes is about the same item again. The frame is proved operation by operation, and for the
cascades by induction on their levels.
-/

namespace Stageflow

open Run

variable {α β : Type} {y : String} {s₀ s t : System} {announce : Event → Run Unit}

/-! ## The part of an item -/

/-- All that a system has of one item: its record, its armed watches, what is measured of it and was
reported of that, the alerts about it, and to whom it is assigned. -/
structure ItemPart where
  item : Option Item
  watches : List Watch
  track : Option Track
  reported : List AlertKey
  alerts : List Signal
  assignee : Option Json

namespace System

/-- The part of an item in a system. -/
def part (s : System) (id : String) : ItemPart where
  item := s.items.get? id
  watches := s.automation.watches.values.filter (·.item = id)
  track := s.metrics.tracks.get? id
  reported := s.metrics.alerted.filter (·.1 = id)
  alerts := s.alerts.filter (·.item = some id)
  assignee := s.records.assignments.get? id

/-- Whether items and watches stand under their own keys. -/
structure Filed (s : System) : Prop where
  items : ∀ id item, s.items.get? id = some item → item.id = id
  watches : ∀ p ∈ s.automation.watches, p.2.key = p.1

/-- Whether a system becomes another one that is filed, without a change of the part of an item. -/
structure Leaves (y : String) (s t : System) : Prop where
  filed : t.Filed
  part : t.part y = s.part y

namespace Leaves

theorem refl (h : s.Filed) : s.Leaves y s := ⟨h, rfl⟩

theorem tail (h : s₀.Leaves y s) (filed : t.Filed) (part : t.part y = s.part y) :
    s₀.Leaves y t := ⟨filed, part.trans h.part⟩

/-- Another item is stored. -/
theorem put (h : s₀.Leaves y s) (item : Item) (hne : item.id ≠ y) :
    s₀.Leaves y { s with items := s.items.put item.id item } := by
  have hitem : (s.items.put item.id item).get? y = s.items.get? y :=
    Table.get?_put_of_ne hne.symm ..
  refine h.tail ⟨Table.forall_get?_put rfl fun id found _ => h.filed.items id found,
    h.filed.watches⟩ ?_
  simp only [System.part, hitem]

end Leaves

end System

/-! ## Watches of other items -/

namespace Watches

variable {watches : Watches}

/-- What is selected keeps the watches of an item if all of them pass the test. -/
theorem filter_select {test : String × String → Watch → Bool}
    (h : ∀ p ∈ watches, p.2.item = y → test p.1 p.2) :
    (watches.select test).values.filter (·.item = y) = watches.values.filter (·.item = y) := by
  unfold Table.select Table.values
  rw [List.filter_map, List.filter_map, List.filter_filter]
  refine congrArg _ (List.filter_congr fun p hp => ?_)
  by_cases hitem : p.2.item = y
  · simp [hitem, h p hp hitem]
  · simp [hitem]

/-- A watch of another item is put beside those of an item. -/
theorem filter_put (filed : ∀ p ∈ watches, p.2.key = p.1) {watch : Watch} (hne : watch.item ≠ y) :
    (watches.put watch.key watch).values.filter (·.item = y) =
      watches.values.filter (·.item = y) := by
  induction watches with
  | nil => simp [Table.put, Table.values, hne]
  | cons p rest ih =>
    obtain ⟨hp, hrest⟩ := List.forall_mem_cons.1 filed
    by_cases hkey : p.1 = watch.key
    · have hitem : p.2.item ≠ y := by
        have hsame : p.2.item = watch.item := congrArg Prod.fst (hp.trans hkey)
        rwa [hsame]
      simp [Table.put, Table.values, hkey, hne, hitem]
    · have hput := ih hrest
      simp only [Table.values] at hput ⊢
      simp [Table.put, hkey, List.filter_cons, hput]

end Watches

/-! ## What is done about other items -/

namespace Run

/-! ### Items -/

theorem leaves_modify {change : System → System} (filed : ∀ s : System, s.Filed → (change s).Filed)
    (part : ∀ s : System, (change s).part y = s.part y) :
    Keeps (s₀.Leaves y) (modify change : Run PUnit) :=
  .modify fun s hs => hs.tail (filed s hs.filed) (part s)

theorem leaves_note (notice : Notice) : Keeps (s₀.Leaves y) (note notice) :=
  leaves_modify (fun _ h => ⟨h.items, h.watches⟩) fun _ => rfl

theorem leaves_overtake {id : String} {item : Item} (hs : s₀.Leaves y s) (hne : item.id ≠ y)
    (hid : item.id = id) : s₀.Leaves y (overtake s id item) := by
  subst hid
  unfold overtake
  split
  · have hput := hs.put { item with version := item.version + 1 } hne
    exact ⟨⟨hput.filed.items, hput.filed.watches⟩, hput.part⟩
  · exact hs

/-- Another item is loaded, under its own id. -/
theorem leads_load {id : String} (hne : id ≠ y) {next : Item → Run β} {Q : β → System → Prop}
    (hs : s₀.Leaves y s)
    (h : ∀ item t, item.id = id → s₀.Leaves y t → Leads (s₀.Leaves y) (next item) t Q) :
    Leads (s₀.Leaves y) (loadItem id >>= next) s Q := by
  rw [Leads, bind_apply, loadItem_apply]
  cases hitem : s.items.get? id with
  | none => exact hs
  | some item =>
    have hid : item.id = id := hs.filed.items id item hitem
    exact h item _ hid (leaves_overtake hs (hid ▸ hne) hid)

theorem leaves_load {id : String} (hne : id ≠ y) {next : Item → Run β}
    (h : ∀ item, item.id = id → Keeps (s₀.Leaves y) (next item)) :
    Keeps (s₀.Leaves y) (loadItem id >>= next) :=
  fun _ hs => leads_load hne hs fun item t hid ht => h item hid t ht

theorem leaves_write {item : Item} (hne : item.id ≠ y) (expected : Int) :
    Keeps (s₀.Leaves y) (writeItem item expected) := by
  intro s hs
  rw [Leads, writeItem_apply]
  cases s.items.get? item.id with
  | none => exact hs
  | some current =>
    by_cases hversion : current.version = expected
    · have hput := hs.put { item with version := expected + 1 } hne
      simp only [hversion, ne_eq, not_true_eq_false, if_false]
      exact ⟨⟨hput.filed.items, hput.filed.watches⟩, hput.part⟩
    · simpa only [hversion, ne_eq, not_false_eq_true, if_true] using hs

theorem leaves_acquire (id : String) : Keeps (s₀.Leaves y) (acquire id) := by
  refine .get_bind fun s hs => ?_
  split
  · exact hs
  · split
    · exact hs
    · exact hs.tail ⟨hs.filed.items, hs.filed.watches⟩ rfl

theorem leaves_release (id : String) : Keeps (s₀.Leaves y) (release id) :=
  leaves_modify (fun _ h => ⟨h.items, h.watches⟩) fun _ => rfl

/-- A computation under a lock leads to what it leads to by itself. -/
theorem leads_locked {id : String} {action : Run α} {P : α → Prop} (hs : s₀.Leaves y s)
    (h : ∀ s, s₀.Leaves y s →
      Leads (s₀.Leaves y) action s fun a t => s₀.Leaves y t ∧ P a) :
    Leads (s₀.Leaves y) (underLock id action) s fun a t => s₀.Leaves y t ∧ P a := by
  refine leads_bind.2 ((leaves_acquire id s hs).mono fun _ t ht => leads_bind.2 ?_)
  refine ((h t ht).mono fun a u hu => ?_).attempt fun fault u hu => ?_
  · exact leads_bind.2 ((leaves_release id u hu.1).mono fun _ _ hv => ⟨hv, hu.2⟩)
  · exact leads_bind.2 ((leaves_release id u hu).mono fun _ _ hv => hv)

theorem leaves_underLock {id : String} {action : Run α} (h : Keeps (s₀.Leaves y) action) :
    Keeps (s₀.Leaves y) (underLock id action) := by
  intro s hs
  refine (leads_locked (P := fun _ => True) hs fun t ht => ?_).mono fun _ _ hu => hu.1
  exact (h t ht).mono fun _ _ hu => ⟨hu, trivial⟩

theorem leaves_workflowOf (item : Item) : Keeps (s₀.Leaves y) (workflowOf item) :=
  .bind .get fun _ => .ofExcept

theorem leaves_signOff {id : String} (hne : id ≠ y) (stage role : String) (approver : Json) :
    Keeps (s₀.Leaves y) (signOff id stage role approver) := by
  refine leaves_underLock (leaves_load hne fun item hid =>
    .bind (leaves_workflowOf item) fun w => .get_bind fun s hs => ?_)
  simp only [leads_bind, leads_ofExcept]
  cases hsigned : w.signOff item stage role approver s.clock with
  | error fault => exact hs
  | ok signed =>
    cases signed with
    | none => exact hs
    | some signed =>
      have hitem : signed.id ≠ y := by rwa [(amends_signOff hsigned).id, hid]
      exact leads_bind.2 (leaves_write hitem item.version s hs)

theorem leaves_setCriterion {id : String} (hne : id ≠ y) (criterion : String) (satisfied : Json) :
    Keeps (s₀.Leaves y) (setCriterion id criterion satisfied) := by
  refine leaves_underLock (leaves_load hne fun item hid => .get_bind fun s hs => ?_)
  cases hchanged : item.setCriterion criterion satisfied s.clock with
  | none => exact hs
  | some changed =>
    have hitem : changed.id = item.id := by
      unfold Item.setCriterion at hchanged
      split at hchanged <;> cases hchanged
      rfl
    exact leaves_write (by rwa [hitem, hid]) item.version s hs

theorem leaves_migrate {id : String} (hne : id ≠ y) (version : Option Int) :
    Keeps (s₀.Leaves y) (migrate id version) := by
  refine leaves_underLock (leaves_load hne fun item hid => .bind .get fun s =>
    .bind .ofExcept fun w => .get_bind fun s hs => ?_)
  simp only [leads_bind, leads_ofExcept]
  cases hrebound : w.rebind item s.clock with
  | error fault => exact hs
  | ok rebound =>
    cases rebound with
    | none => exact hs
    | some rebound =>
      have hitem : rebound.id ≠ y := by rwa [(rebinds_rebind hrebound).id, hid]
      simp only
      split
      · exact leads_bind.2 ((leaves_note _ s hs).mono fun _ t ht =>
          leaves_write hitem item.version t ht)
      · exact leaves_write hitem item.version s hs

/-- A committed move is told of the item that was moved. -/
theorem leads_commit {id : String} (hne : id ≠ y) (target : Json) (actor : Actor)
    (hs : s₀.Leaves y s) :
    Leads (s₀.Leaves y) (commitMove id target actor) s fun passage t =>
      s₀.Leaves y t ∧ passage.event.item = id := by
  refine leads_load hne hs fun item t hid ht => leads_bind.2 ?_
  refine (leaves_workflowOf item t ht).mono fun w u hu => ?_
  simp only [leads_bind, leads_ofExcept, leads_get]
  cases w.decide item target with
  | error fault => exact hu
  | ok move =>
    have hitem : (item.moveTo move.route.target move.target.id u.clock).id ≠ y :=
      fun heq => hne (hid.symm.trans heq)
    refine (leaves_write hitem item.version u hu).mono fun stored v hv => ?_
    exact (leaves_note _ v hv).mono fun _ _ hw => ⟨hw, rfl⟩

end Run

/-- Whether an event is about another item. -/
def Event.Beside (y : String) (event : Event) : Prop := ∃ x ∈ event.item?, x ≠ y

/-- Whether announcing what happens to other items leaves an item alone. -/
def PassesBy (y : String) (s₀ : System) (announce : Event → Run Unit) : Prop :=
  ∀ event, event.Beside y → Keeps (s₀.Leaves y) (announce event)

/-- The id that a new item gets: the given one, else the next new one. -/
def System.idFor (s : System) : Option String → String
  | some id => if id.isEmpty then Text.hexDigits 12 s.nextId else id
  | none => Text.hexDigits 12 s.nextId

namespace Run

theorem leaves_moveItem (ha : PassesBy y s₀ announce) {id : String} (hne : id ≠ y) (target : Json)
    (actor : Actor) : Keeps (s₀.Leaves y) (moveItem announce id target actor) := by
  intro s hs
  refine leads_bind.2 ((leads_locked hs fun t ht => leads_commit hne target actor ht).mono ?_)
  rintro passage t ⟨ht, hitem⟩
  refine leads_bind.2 ((ha (.moved passage.event) ⟨_, rfl, ?_⟩ t ht).mono fun _ _ hu => hu)
  rwa [hitem]

theorem leads_idFor_beside {given : Option String} (hs : s₀.Leaves y s)
    (hne : s.idFor given ≠ y) :
    Leads (s₀.Leaves y) (idFor given) s fun id t => s₀.Leaves y t ∧ id ≠ y := by
  have hnew (h : Text.hexDigits 12 s.nextId ≠ y) :
      Leads (s₀.Leaves y) newId s fun id t => s₀.Leaves y t ∧ id ≠ y :=
    ⟨hs.tail ⟨hs.filed.items, hs.filed.watches⟩ rfl, h⟩
  unfold idFor
  unfold System.idFor at hne
  split
  · split
    · rename_i hempty
      exact hnew (by simpa [hempty] using hne)
    · rename_i hempty
      exact ⟨hs, by simpa [hempty] using hne⟩
  · exact hnew hne

theorem create_eq_ok {items : Items} {item : Item} {stored : Item × Items}
    (h : items.create item = .ok stored) :
    stored.2 = items.put item.id { item with version := 1 } := by
  unfold Items.create at h
  split at h
  · cases h
  · cases h
    rfl

theorem leads_createItem (ha : PassesBy y s₀ announce) (hs : s₀.Leaves y s) {request : NewItem}
    (hne : s.idFor request.id ≠ y) :
    Leads (s₀.Leaves y) (createItem announce request) s fun _ t => s₀.Leaves y t := by
  simp only [createItem, leads_bind, leads_get, leads_ofExcept]
  split
  · rename_i w _
    refine (leads_levelFor hs).mono ?_
    rintro complexity t ⟨rfl, -⟩
    split
    · rename_i stage _
      refine (leads_idFor_beside hs hne).mono ?_
      rintro id u ⟨hu, hid⟩
      split
      · rename_i stored hstored
        have hput := hu.put
          { w.newItem id complexity request.attributes stage.id t.clock with version := 1 } hid
        simp only [leads_modify, leads_note, create_eq_ok hstored]
        refine (ha _ ⟨_, rfl, hid⟩ _ ?_).mono fun _ _ ht => ht
        exact ⟨⟨hput.filed.items, hput.filed.watches⟩, hput.part⟩
      · exact hu
    · exact hs
  · exact hs

/-! ### Actions -/

theorem tolerates_leaves {item : String} (hne : item ≠ y) : Tolerates (s₀.Leaves y) item where
  note _ hs := hs.tail ⟨hs.filed.items, hs.filed.watches⟩ rfl
  drawn _ hs := hs.tail ⟨hs.filed.items, hs.filed.watches⟩ rfl
  recorded h hs := hs.tail ⟨hs.filed.items, hs.filed.watches⟩ (by
    simp only [System.part, h y hne.symm])
  runner _ hs := hs.tail ⟨hs.filed.items, hs.filed.watches⟩ rfl

theorem leaves_runActions (ha : PassesBy y s₀ announce) {context : ActionContext}
    (hne : context.item ≠ y) (actions : List Action) :
    Keeps (s₀.Leaves y) (runActions announce context actions) := by
  have hload : Keeps (s₀.Leaves y) (loadItem context.item) := by
    have hbind := leaves_load hne fun item _ => Keeps.pure (a := item) (I := s₀.Leaves y)
    rwa [bind_pure] at hbind
  exact (tolerates_leaves hne).keeps_runActions fun _ =>
    (tolerates_leaves hne).keeps_carryOut
      (fun _ hs => hs.tail ⟨hs.filed.items, hs.filed.watches⟩ rfl) hload fun target =>
        leaves_moveItem ha hne target _

/-! ### Automation -/

/-- The watches are replaced by others that are filed, and have those of the item. -/
theorem leaves_watches (hs : s₀.Leaves y s) {watches : Watches}
    (filed : ∀ p ∈ watches, p.2.key = p.1)
    (same : watches.values.filter (·.item = y) =
      s.automation.watches.values.filter (·.item = y)) :
    s₀.Leaves y { s with automation := { s.automation with watches } } :=
  hs.tail ⟨hs.filed.items, filed⟩ (by simp only [System.part, same])

/-- Watches of other items are taken out of the table. -/
theorem leaves_select (hs : s₀.Leaves y s) {test : String × String → Watch → Bool}
    (h : ∀ p ∈ s.automation.watches, p.2.item = y → test p.1 p.2) :
    s₀.Leaves y { s with
      automation := { s.automation with watches := s.automation.watches.select test } } :=
  leaves_watches hs (fun p hp => hs.filed.watches p (List.mem_filter.1 hp).1)
    (Watches.filter_select h)

theorem leaves_ruleBook (team : String) (version : Int) :
    Keeps (s₀.Leaves y) (ruleBook team version) := by
  refine .bind .get fun s => ?_
  split
  · exact .pure
  · refine .bind .get fun _ => .bind .ofExcept fun w => .bind ?_ fun _ => .pure
    exact leaves_modify (fun _ h => ⟨h.items, h.watches⟩) fun _ => rfl

variable {trigger : Trigger}

theorem leaves_armRule (hne : trigger.item ≠ y) (replace : Bool) (rule : Rule) :
    Keeps (s₀.Leaves y) (armRule trigger replace rule) := by
  unfold armRule
  split
  · refine .get_bind fun s hs => ?_
    simp only [leads_bind, leads_ofReading]
    split
    · split
      · exact hs
      · rename_i watches harm
        obtain rfl := Watches.eq_put_of_arm harm
        refine leaves_note _ _ (leaves_watches hs (fun p hp => ?_)
          (Watches.filter_put hs.filed.watches hne))
        obtain rfl | hp := Table.mem_put hp
        · rfl
        · exact hs.filed.watches p hp
    · exact hs
  · exact .pure

theorem leaves_runRules (ha : PassesBy y s₀ announce) (hne : trigger.item ≠ y) (rules : RuleBook)
    (replace : Bool) : Keeps (s₀.Leaves y) (runRules announce rules trigger replace) :=
  .bind (.forM fun rule _ => leaves_armRule hne replace rule) fun _ =>
    .forM fun rule _ => .bind (.bind (leaves_note _) fun _ =>
      leaves_runActions ha hne rule.actions) fun _ => .pure

theorem leaves_handleMoved (ha : PassesBy y s₀ announce) {m : Moved} (hne : m.item ≠ y) :
    Keeps (s₀.Leaves y) (handleMoved announce m) := by
  refine .get_bind fun s hs => ?_
  have hstay : s₀.Leaves y { s with
      automation := { s.automation with watches := s.automation.watches.stay m } } := by
    refine leaves_select hs fun p _ hitem => ?_
    simp [Watches.isLeft, hitem, hne.symm]
  have hrules : Keeps (s₀.Leaves y) (do
      (s.automation.watches.left m).values.forM fun watch => note (.left watch)
      let rules ← ruleBook m.team m.workflowVersion
      runRules announce rules ⟨.moved m, m.item, m.team, m.target, m.workflowVersion⟩ true) :=
    .bind (.forM fun _ _ => leaves_note _) fun _ =>
      .bind (leaves_ruleBook _ _) fun rules => leaves_runRules ha hne rules true
  exact leads_bind.2 (leads_modify.2 (hrules _ hstay))

/-- The watches of an item that a signal breaks are that item's. -/
theorem leaves_breakWatches (ha : PassesBy y s₀ announce) {id : String} (hne : id ≠ y)
    (signal : Signal) :
    Keeps (s₀.Leaves y) (breakWatches announce signal fun watch => watch.item = id) := by
  refine .get_bind fun s hs => ?_
  have hbroken : ∀ p ∈ brokenBy s.automation signal fun watch => watch.item = id,
      p.1.item = id := by
    intro p hp
    obtain ⟨watch, -, hp⟩ := List.mem_filterMap.1 hp
    split at hp
    · rename_i hitem
      obtain ⟨rule, -, hp⟩ := Option.bind_eq_some_iff.1 hp
      split at hp <;> cases hp
      simpa using hitem
    · cases hp
  refine leads_bind.2 (leads_modify.2 ?_)
  refine Keeps.bind (.forM fun _ _ => leaves_note _) (fun _ => .forM fun p hp => ?_) _
    (leaves_select hs fun q hq hitem => ?_)
  · exact .bind (leaves_note _) fun _ => .bind (.bind (leaves_note _) fun _ =>
      leaves_runActions ha (hbroken p hp ▸ hne) _) fun _ => .pure
  · simp only [Bool.not_eq_true', List.any_eq_false, decide_eq_true_eq]
    intro p hp hkey
    have hsame : p.1.item = q.2.item := congrArg Prod.fst (hkey.trans (hs.filed.watches q hq).symm)
    exact hne ((hbroken p hp).symm.trans (hsame.trans hitem))

theorem leaves_handleSignal (ha : PassesBy y s₀ announce) {signal : Signal} {id : String}
    (about : signal.item = some id) (hne : id ≠ y) :
    Keeps (s₀.Leaves y) (handleSignal announce signal) := by
  intro s hs
  unfold handleSignal
  rw [about]
  simp only [leads_bind, leads_attempt_loadItem]
  split
  · rename_i item hitem
    have hid : item.id = id := hs.filed.items id item hitem
    subst hid
    refine (leaves_breakWatches ha hne signal _ (leaves_overtake hs hne rfl)).mono fun _ t ht => ?_
    refine leads_bind.2 ((leaves_ruleBook _ _ t ht).mono fun rules u hu => ?_)
    exact leaves_runRules ha hne rules false u hu
  · exact leaves_note _ s hs

theorem leaves_handleEvent (ha : PassesBy y s₀ announce) {event : Event} (h : event.Beside y) :
    Keeps (s₀.Leaves y) (handleEvent announce event) := by
  obtain ⟨x, hitem, hne⟩ := h
  refine .bind .get fun s => ?_
  dsimp only
  split
  · exact leaves_note _
  · refine .bind (leaves_note _) fun _ => ?_
    cases event with
    | moved m =>
      obtain rfl : m.item = x := Option.some.inj hitem
      exact leaves_handleMoved ha hne
    | signal signal =>
      have hitem : signal.item = some x := hitem
      exact leaves_handleSignal ha hitem hne

theorem leaves_ingest (ha : PassesBy y s₀ announce) {signal : Signal} {id : String}
    (about : signal.item = some id) (hne : id ≠ y) :
    Keeps (s₀.Leaves y) (ingest announce signal) := by
  unfold ingest
  split
  · exact leaves_note _
  · exact .bind .get fun s => leaves_handleEvent ha ⟨id, about, hne⟩

/-! ### Metrics -/

/-- What is measured of one item is not measured of another. -/
theorem part_record {m : Moved} (hne : m.item ≠ y) (s : System) (terminal : Bool) :
    ({ s with metrics := (s.metrics.record m terminal).1 } : System).part y = s.part y := by
  unfold Metrics.record
  cases m.source <;> simp [System.part, Metrics.count, Table.get?_put_of_ne hne.symm]

/-- Alerts of items are reported of no other. -/
theorem alerts_beside (now : Instant) (depth : Int) {limits : List Limit}
    (hne : ∀ limit ∈ limits, limit.item ≠ y) (metrics : Metrics) :
    (metrics.alerts now depth limits).1.alerted.filter (·.1 = y) =
      metrics.alerted.filter (·.1 = y) := by
  induction limits generalizing metrics with
  | nil => rfl
  | cons limit rest ih =>
    obtain ⟨hfirst, hrest⟩ := List.forall_mem_cons.1 hne
    unfold Metrics.alerts
    split
    · rfl
    · exact ih hrest metrics
    · rename_i key signal hsignal
      obtain ⟨value, visit, heq⟩ := Metrics.exists_of_alert? hsignal
      obtain ⟨rfl, rfl⟩ := Prod.mk.inj heq
      refine (ih hrest _).trans ?_
      simp [hfirst]

theorem leaves_deliverAlert (ha : PassesBy y s₀ announce) {alert : Signal} {id : String}
    (about : alert.item = some id) (hne : id ≠ y) :
    Keeps (s₀.Leaves y) (deliverAlert announce alert) := by
  have hpass (sink : AlertSink) : Keeps (s₀.Leaves y) (passAlert announce alert sink) := by
    cases sink with
    | automation =>
      refine .bind (.attempt (leaves_ingest ha about hne)) fun result => ?_
      cases result with
      | ok _ => exact .pure
      | error _ => exact leaves_note _
    | failing => exact leaves_note _
    | recording | none => exact .pure
  have hrecord : Keeps (s₀.Leaves y)
      (modify fun s => { s with alerts := s.alerts ++ [alert] } : Run PUnit) :=
    leaves_modify (fun _ h => ⟨h.items, h.watches⟩) fun s => by
      simp [System.part, List.filter_append, about, hne]
  refine .bind .get fun s => ?_
  dsimp only
  split
  · exact .bind hrecord fun _ => hpass s.sink
  · exact hpass s.sink

theorem leaves_checkThresholds (ha : PassesBy y s₀ announce) {id : String} (hne : id ≠ y)
    (now : Option Instant) (depth : Int) :
    Keeps (s₀.Leaves y) (checkThresholds announce now [id] depth) := by
  refine .get_bind fun s hs => ?_
  have hmeasured : ∀ limit ∈ limits s.registry (measuredItems s.metrics [id]), limit.item ≠ y := by
    intro limit hlimit
    have hp := (mem_limits.1 hlimit).1
    have hp : (s.metrics.tracks.get? id).map (fun track => (id, track)) =
        some (limit.item, limit.track) := by simpa [measuredItems, eq_comm] using hp
    obtain ⟨track, -, htrack⟩ := Option.map_eq_some_iff.1 hp
    obtain ⟨rfl, -⟩ := Prod.mk.inj htrack
    exact hne
  dsimp only
  rw [leads_bind, leads_modify]
  refine Keeps.ofExcept_bind (fun alerts hfound => .bind (.forM fun alert halert => ?_)
    fun _ => .pure) _ (hs.tail ⟨hs.filed.items, hs.filed.watches⟩ ?_)
  · obtain ⟨limit, hlimit, value, visit, rfl⟩ := Metrics.exists_of_mem_alerts hfound halert
    exact leaves_deliverAlert ha rfl (hmeasured limit hlimit)
  · simp only [System.part, tracks_alerts, alerts_beside _ _ hmeasured]

theorem leaves_measure (ha : PassesBy y s₀ announce) {m : Moved} (hne : m.item ≠ y) :
    Keeps (s₀.Leaves y) (measure announce m) := by
  refine .get_bind fun s hs => ?_
  simp only [leads_bind, leads_set]
  have hrecord : s₀.Leaves y { s with metrics := (s.metrics.record m (isTerminalStage
      s.registry m.team m.workflowVersion m.targetStage)).1 } :=
    hs.tail ⟨hs.filed.items, hs.filed.watches⟩ (part_record hne s _)
  split
  · exact (leaves_checkThresholds ha hne _ _).bind (fun _ => .pure) _ hrecord
  · exact hrecord

/-! ### Delivery -/

theorem leaves_deliver (ha : PassesBy y s₀ announce) {event : Event} (h : event.Beside y)
    (subscriber : Subscriber) : Keeps (s₀.Leaves y) (deliver announce event subscriber) := by
  cases subscriber with
  | automation => exact leaves_handleEvent ha h
  | metrics =>
    cases event with
    | moved m =>
      obtain ⟨x, hitem, hne⟩ := h
      obtain rfl : m.item = x := Option.some.inj hitem
      exact leaves_measure ha hne
    | signal signal => exact .pure
  | recorder => exact leaves_modify (fun _ h => ⟨h.items, h.watches⟩) fun _ => rfl
  | failing name => exact .raise

/-- An event about another item leaves an item alone, if what it causes does. -/
theorem passesBy_publishWith (ha : PassesBy y s₀ announce) :
    PassesBy y s₀ (publishWith announce) := by
  intro event h
  refine keeps_publishWith_of_handOver (.bind .get fun s => ?_)
  dsimp only
  split
  · refine .forM fun subscriber _ => .bind (leaves_note _) fun _ =>
      .bind (.attempt (leaves_deliver ha h subscriber)) fun result => ?_
    cases result with
    | ok _ => exact .pure
    | error _ => exact leaves_note _
  · exact .pure

theorem passesBy_cascade (n : Nat) : PassesBy y s₀ (cascade n) := by
  induction n with
  | zero => exact fun _ _ => .pure
  | succ n ih => exact passesBy_publishWith ih

theorem passesBy_publish : PassesBy y s₀ publish :=
  fun event h => .bind .get fun _ => passesBy_cascade _ event h

/-! ### Ending watches -/

theorem leaves_disarm {item : String} (hne : item ≠ y) (rule : Option String) :
    Keeps (s₀.Leaves y) (disarm item rule) := by
  refine .get_bind fun s hs => ?_
  have hselect : s₀.Leaves y { s with
      automation := { s.automation with
        watches := s.automation.watches.select fun key _ => !Watches.isOf item rule key } } := by
    refine leaves_select hs fun p hp hitem => ?_
    have hkey : p.1.1 = y := (congrArg Prod.fst (hs.filed.watches p hp)).symm.trans hitem
    simp [Watches.isOf, hkey, hne.symm]
  have hnotes : Keeps (s₀.Leaves y) (do
      (s.automation.watches.select fun key _ => Watches.isOf item rule key).values.forM
        fun watch => note (.disarmed watch)
      return (s.automation.watches.select fun key _ => Watches.isOf item rule key).length) :=
    .bind (.forM fun _ _ => leaves_note _) fun _ => .pure
  exact leads_bind.2 (leads_modify.2 (hnotes _ hselect))

end Run

/-! ## Operations -/

/-- Every watch stands under its key. -/
theorem Step.watches {terms : Terms} {v v' : View} (h : Step terms v v')
    (filed : ∀ p ∈ v.watches, p.2.key = p.1) : ∀ p ∈ v'.watches, p.2.key = p.1 := by
  obtain ⟨_, -, hless | ⟨watch, -, hput⟩⟩ := h.arms
  · exact fun p hp => filed p (hless.subset hp)
  · intro p hp
    obtain rfl | hp := Table.mem_put (hput ▸ hp)
    · rfl
    · exact filed p hp

/-- In every session items and watches stand under their own keys. -/
theorem filed_through (new : s.New) (ops : List Operation) : (s.through ops).Filed := by
  refine ⟨(reaches_loose new.sound ops).sound.items, ?_⟩
  exact invariant_loose (P := fun v => ∀ p ∈ v.watches, p.2.key = p.1)
    (fun _ _ hv hs => hs.watches hv) new.sound (by simp [System.view, new.watches]) ops

namespace Operation

/-- The item that an operation names; a creation names the item that is to be created. -/
def named? (s : System) : Operation → Option String
  | .create request => some (s.idFor request.id)
  | .move item .. | .signOff item .. | .setCriterion item .. | .migrate item _ | .disarm item _ =>
    some item
  | .ingest signal => signal.item
  | _ => none

theorem leaves_perform {op : Operation} {x : String} (names : op.named? s = some x) (hne : x ≠ y)
    (filed : s.Filed) : s.Leaves y (op.perform.after s) := by
  have hs : s.Leaves y s := .refl filed
  have hkeeps {β : Type} {action : Run β} (h : Keeps (s.Leaves y) action) :
      s.Leaves y ((do let _ ← action : Run Unit).after s) :=
    (h.bind fun _ => .pure).after hs
  cases op with
  | create request =>
    obtain rfl : s.idFor request.id = x := Option.some.inj names
    refine Leads.after (leads_bind.2 ?_)
    exact (leads_createItem passesBy_publish hs hne).mono fun _ _ ht => ht
  | move item target actor =>
    obtain rfl : item = x := Option.some.inj names
    exact hkeeps (leaves_moveItem passesBy_publish hne target actor)
  | signOff item stage role approver =>
    obtain rfl : item = x := Option.some.inj names
    exact hkeeps (leaves_signOff hne stage role approver)
  | setCriterion item criterion satisfied =>
    obtain rfl : item = x := Option.some.inj names
    exact hkeeps (leaves_setCriterion hne criterion satisfied)
  | migrate item version =>
    obtain rfl : item = x := Option.some.inj names
    exact hkeeps (leaves_migrate hne version)
  | disarm item rule =>
    obtain rfl : item = x := Option.some.inj names
    exact hkeeps (leaves_disarm hne rule)
  | ingest signal => exact (leaves_ingest passesBy_publish names hne).after hs
  | _ => cases names

end Operation

/-- Items are isolated from each other: whatever state a session has led to, an operation that names
one item leaves the record of any other item as it is, and with it its watches, what is measured of
it and was reported of that, the alerts about it and its assignment, through all the cascades that
the operation sets off. -/
theorem items_isolated {s : System} (new : s.New) (ops : List Operation) {op : Operation}
    {x y : String} (names : op.named? (s.through ops) = some x) (distinct : x ≠ y) :
    (op.perform.after (s.through ops)).part y = (s.through ops).part y :=
  (Operation.leaves_perform names distinct (filed_through new ops)).part

/-- Two items wait in the status that a deferred rule watches; where the first one is to be moved
to, another rule moves it on. -/
def sideBySide : List Operation :=
  sampleSession [
      .obj [("id", .str "slow"), ("trigger", .str "transition"), ("to", .str "A"),
        ("duration", .str "1h"),
        ("actions", .arr [.obj [("type", .str "assign"), ("assignee", .str "lead")]])],
      onwardRule "B" "C"] ++
    [.create { team := "t", id := some "i" }, .create { team := "t", id := some "j" }]

theorem items_isolated_sideBySide :
    let s := System.through {} sideBySide
    let t := (Operation.move "i" (.str "B") {}).perform.after s
    ((s.part "i").watches.map (·.rule), (t.part "i").watches.map (·.rule)) = (["slow"], []) ∧
      (t.part "i").item.map (·.status) = some "C" ∧
      (s.part "j").watches.map (·.rule) = ["slow"] ∧ t.part "j" = s.part "j" :=
  ⟨by decide +kernel, by decide +kernel, by decide +kernel,
    items_isolated (System.new_default {}) sideBySide rfl (by decide)⟩

end Stageflow
