import Mathlib.Data.List.Chain
import Mathlib.Logic.Relation
import Stageflow.Proofs.Core.Session
import Stageflow.Proofs.Decided
import Stageflow.Proofs.ItemSteps
import Stageflow.Proofs.Tables

/-!
# Histories are chronicles

The history of an item tells without a gap where it was since it was created, in the order of time,
and its version counts the saves of its record. A history under one version of a workflow starts at
the initial status and goes along the table of moves.
-/

namespace Stageflow

/-! ## Stays without a gap -/

/-- A history that leads up to now: the last stay is open and in the item's status, each earlier one
ended when the next one began, stays began in order, and the first one when the item was created. -/
structure Item.Chronicled (item : Item) : Prop where
  current : ∃ earlier last, item.history = earlier ++ [last] ∧ last.status = item.status ∧
    last.exitedAt = none
  linked : item.history.IsChain fun stay next => stay.exitedAt = some next.enteredAt
  ordered : item.history.Pairwise fun stay next => stay.enteredAt.micros ≤ next.enteredAt.micros
  created : item.createdAt = item.history.head?.map (·.enteredAt)

/-- Whether all stays of an item began by a time. -/
def Item.EnteredBy (item : Item) (time : Instant) : Prop :=
  ∀ stay ∈ item.history, stay.enteredAt.micros ≤ time.micros

namespace Item

variable {item old new : Item} {status stage : String} {now : Instant}

theorem Chronicled.congr (h : old.Chronicled) (history : new.history = old.history)
    (status : new.status = old.status) (createdAt : new.createdAt = old.createdAt) :
    new.Chronicled where
  current := by rw [history, status]; exact h.current
  linked := history ▸ h.linked
  ordered := history ▸ h.ordered
  created := by rw [history, createdAt]; exact h.created

theorem EnteredBy.moveTo (h : item.EnteredBy now) (chronicled : item.Chronicled) :
    (item.moveTo status stage now).EnteredBy now := by
  obtain ⟨earlier, last, hhistory, -, hopen⟩ := chronicled.current
  intro stay hstay
  have hlast : last ∈ item.history := by simp [hhistory]
  simp only [history_moveTo hhistory hopen, List.mem_append, List.mem_cons, List.not_mem_nil,
    or_false] at hstay
  obtain hstay | rfl | rfl := hstay
  · exact h stay (by simp [hhistory, hstay])
  · exact h last hlast
  · exact Int.le_refl _

/-- A move goes on with a chronicle. -/
theorem Chronicled.moveTo (h : item.Chronicled) (entered : item.EnteredBy now) :
    (item.moveTo status stage now).Chronicled := by
  obtain ⟨earlier, last, hhistory, -, hopen⟩ := h.current
  have hmoved := history_moveTo hhistory hopen status stage now
  have hlinked := h.linked
  have hordered := h.ordered
  rw [hhistory] at hlinked hordered
  refine ⟨⟨earlier ++ [last.close now], ⟨status, stage, now, none⟩, ?_, rfl, rfl⟩, ?_, ?_, ?_⟩
  · rw [hmoved]
    simp
  · rw [hmoved]
    obtain ⟨hearlier, -, hjoin⟩ := List.isChain_append.1 hlinked
    refine List.isChain_append.2 ⟨hearlier, by simp [Stay.close], fun stay hstay next hnext => ?_⟩
    cases hnext
    exact hjoin stay hstay last rfl
  · rw [hmoved]
    obtain ⟨hearlier, -, hcross⟩ := List.pairwise_append.1 hordered
    refine List.pairwise_append.2 ⟨hearlier, ?_, fun stay hstay next hnext => ?_⟩
    · simpa [Stay.close] using entered last (by simp [hhistory])
    · obtain rfl | rfl : next = last.close now ∨ next = ⟨status, stage, now, none⟩ := by
        simpa using hnext
      · exact hcross stay hstay last (by simp)
      · exact entered stay (by simp [hhistory, hstay])
  · rw [hmoved]
    refine h.created.trans ?_
    rw [hhistory]
    cases earlier <;> rfl

end Item

/-! ## Chronicles of a system -/

/-- What is true of stored items at a time: they stand under their ids, their histories are
chronicles up to then, and their versions count their saves. -/
structure Items.Chronicled (items : Items) (saves : List String) (now : Instant) : Prop where
  keyed : ∀ id item, items.get? id = some item → item.id = id
  chronicled : ∀ id item, items.get? id = some item → item.Chronicled
  entered : ∀ id item, items.get? id = some item → item.EnteredBy now
  counted : ∀ id item, items.get? id = some item → item.version = 1 + saves.count id
  unsaved : ∀ id, items.get? id = none → id ∉ saves

namespace Items.Chronicled

variable {items : Items} {saves : List String} {now : Instant} {old : Item}

theorem unsaved_put (h : items.Chronicled saves now) (item : Item) {id : String}
    (hfree : (items.put item.id item).get? id = none) : id ≠ item.id ∧ id ∉ saves := by
  grind [Table.get?_put, h.unsaved]

/-- Items go on as chronicles when one is saved whose own history does. -/
theorem save (h : items.Chronicled saves now) (stored : items.get? old.id = some old)
    (new : Item) (hid : new.id = old.id) (chronicled : new.Chronicled) (entered : new.EnteredBy now)
    (version : new.version = old.version + 1) :
    Items.Chronicled (items.put new.id new) (new.id :: saves) now where
  keyed := Table.forall_get?_put rfl fun id item _ => h.keyed id item
  chronicled := Table.forall_get?_put chronicled fun id item _ => h.chronicled id item
  entered := Table.forall_get?_put entered fun id item _ => h.entered id item
  counted := by
    refine Table.forall_get?_put ?_ fun id item hother hitem => ?_
    · have hcount := h.counted old.id old stored
      simp only [hid, List.count_cons_self]
      omega
    · rw [List.count_cons_of_ne (Ne.symm hother)]
      exact h.counted id item hitem
  unsaved id hfree := by
    obtain ⟨hother, hunsaved⟩ := h.unsaved_put new hfree
    simp [hother, hunsaved]

/-- Items go on as chronicles when one is created whose history is. -/
theorem create (h : items.Chronicled saves now) (new : Item) (free : items.get? new.id = none)
    (chronicled : new.Chronicled) (entered : new.EnteredBy now) (version : new.version = 1) :
    Items.Chronicled (items.put new.id new) saves now where
  keyed := Table.forall_get?_put rfl fun id item _ => h.keyed id item
  chronicled := Table.forall_get?_put chronicled fun id item _ => h.chronicled id item
  entered := Table.forall_get?_put entered fun id item _ => h.entered id item
  counted := by
    refine Table.forall_get?_put ?_ fun id item _ => h.counted id item
    simp [version, List.count_eq_zero.2 (h.unsaved new.id free)]
  unsaved _ hfree := (h.unsaved_put new hfree).2

/-- Items that are chronicles stay so as time goes by. -/
theorem later (h : items.Chronicled saves now) {later : Instant}
    (hlater : now.micros ≤ later.micros) : items.Chronicled saves later := by
  refine ⟨h.keyed, h.chronicled, fun id item hitem stay hstay => ?_, h.counted, h.unsaved⟩
  exact Int.le_trans (h.entered id item hitem stay hstay) hlater

end Items.Chronicled

namespace Core

/-- Whether the items of a core are chronicles up to now. -/
def Chronicles (limit : Int) (c : Core) : Prop :=
  c.limit = limit ∧ c.items.Chronicled c.saves c.clock

theorem Chronicles.save {limit : Int} {c : Core} {old new : Item} (h : c.Chronicles limit)
    (stored : c.items.get? old.id = some old) (hid : new.id = old.id)
    (history : new.history = old.history) (status : new.status = old.status)
    (createdAt : new.createdAt = old.createdAt) (version : new.version = old.version + 1) :
    (c.save new).Chronicles limit := by
  have hentered := h.2.entered _ _ stored
  refine ⟨h.1, h.2.save stored new hid ?_ ?_ version⟩
  · exact (h.2.chronicled _ _ stored).congr history status createdAt
  · rwa [Item.EnteredBy, history]

/-- Items are touched, moved and created as chronicles go on. -/
theorem moving_chronicles (limit : Int) :
    Moving limit (Chronicles limit) (Chronicles limit) fun _ => Chronicles limit where
  limited h := h.1
  keyed h stored := h.2.keyed _ _ stored
  touched h stored touches :=
    h.save stored touches.id touches.history touches.status touches.createdAt touches.version
  learned h _ := h
  signalled _ _ h := h
  hangs h _ := h
  rescued h := h
  pending h := h.1
  committed := by
    intro c w item target move actor h stored _ _
    have hold := h.2.chronicled _ _ stored
    have hentered := h.2.entered _ _ stored
    have hmoved : (item.moveTo move.route.target move.target.id c.clock).Chronicled :=
      hold.moveTo hentered
    exact ⟨h.1, h.2.save stored _ rfl (hmoved.congr rfl rfl rfl) (hentered.moveTo hold) rfl⟩
  created := by
    intro c w team id stage complexity attributes actor h _ _ free
    refine ⟨h.1, h.2.create
      { w.newItem id complexity attributes stage.id c.clock with version := 1 } free ?_ ?_ rfl⟩
    · exact ⟨⟨[], _, rfl, rfl, rfl⟩, .singleton _, List.pairwise_singleton .., rfl⟩
    · simp [Item.EnteredBy, Workflow.newItem]

end Core

/-- Whether an operation does not set the clock back. -/
def Operation.isForward : Operation → Bool
  | .advance seconds =>
    match Span.ofJson seconds with
    | .ok span => 0 ≤ span
    | .error _ => true
  | _ => true

open Run in
/-- No operation that leaves the clock or sets it forward breaks a chronicle. -/
theorem Operation.stays_chronicles {limit : Int} {op : Operation} (forward : op.isForward) :
    Stays (Core.On (Core.Chronicles limit)) (Core.On (Core.Chronicles limit)) op.perform := by
  refine stays_perform_of_blind (Core.moving_chronicles limit) (fun _ h => h) (fun _ h => h)
    (fun _ h => h) ?_ ?_
  · intro c old new h stored rebinds createdAt version
    exact h.save stored rebinds.id rebinds.history rebinds.status createdAt version
  · rintro c seconds span rfl hspan h
    have hspan : (0 : Int) ≤ span := by simpa [isForward, hspan] using forward
    refine ⟨h.1, h.2.later ?_⟩
    simp only [Instant.micros_shift]
    omega

/-- Chronicles go on through every session that does not set the clock back. -/
theorem chronicles_through {limit : Int} {s : System} (h : s.core.Chronicles limit)
    {ops : List Operation} (forward : ∀ op ∈ ops, op.isForward) :
    (s.through ops).core.Chronicles limit := by
  induction ops generalizing s with
  | nil => exact h
  | cons op ops ih =>
    have hop : Core.On (Core.Chronicles limit) (op.perform.after s) :=
      (Operation.stays_chronicles (forward op (by simp)) s h).after fun _ ht => ht
    exact ih hop fun op hop => forward op (by simp [hop])

/-! ## Histories along the table of moves -/

/-- Whether a status can be reached from the initial one along the table of moves. -/
def Workflow.Reaches (w : Workflow) (status : String) : Prop :=
  Relation.ReflTransGen (fun source target => w.allows source target) w.initialStatus status

/-- A history by a workflow: it starts at the initial status, and each stay is in the stage of a
status that can be reached. -/
structure Workflow.Charts (w : Workflow) (history : List Stay) : Prop where
  start : history.head?.map (·.status) = some w.initialStatus
  placed : ∀ stay ∈ history, w.Reaches stay.status ∧
    ∃ stage, w.stageOf stay.status = .ok stage ∧ stay.stage = stage.id

/-- Moves of the table hand on that a status can be reached. -/
theorem Workflow.carries_reaches (w : Workflow) : w.edges.Carries w.Reaches := by
  intro source hsource target htarget
  refine hsource.tail ?_
  simpa [Workflow.allows, Edges.allows] using htarget

/-- Ending its last stay leaves a history on the chart. -/
theorem Workflow.Charts.closeLast {w : Workflow} {history : List Stay} (h : w.Charts history)
    (now : Instant) : w.Charts (closeLast now history) := by
  obtain rfl | ⟨earlier, last, rfl⟩ := List.eq_nil_or_concat' history
  · exact h
  obtain ⟨exitedAt, hended⟩ := ended_stay last now
  rw [closeLast_append, hended]
  refine ⟨?_, fun stay hstay => ?_⟩
  · refine Eq.trans ?_ h.start
    cases earlier <;> rfl
  · obtain hstay | hstay := List.mem_append.1 hstay
    · exact h.placed stay (by simp [hstay])
    · obtain rfl := List.mem_singleton.1 hstay
      exact h.placed last (by simp)

theorem lasting_charts :
    Lasting fun w item => w.Reaches item.status ∧ w.Charts item.history where
  amended := by
    rintro w old new ⟨hstatus, hcharts⟩ amends
    exact ⟨amends.status ▸ hstatus, amends.history ▸ hcharts⟩
  created := by
    intro w stage id complexity attributes now version placed
    refine ⟨.refl, rfl, fun stay hstay => ?_⟩
    obtain rfl := List.mem_singleton.1 hstay
    exact ⟨.refl, stage, placed, rfl⟩
  moved := by
    rintro w old target move now version decided ⟨hstatus, hcharts⟩
    obtain ⟨hroute, -, hgoal, -⟩ := Workflow.decide_ok decided
    have hreached : w.Reaches move.route.target :=
      Workflow.route_carries w.carries_reaches hroute hstatus
    have hclosed := hcharts.closeLast now
    refine ⟨hreached, ?_, fun stay hstay => ?_⟩
    · have hstart := hclosed.start
      cases hhistory : closeLast now old.history with
      | nil => simp [hhistory] at hstart
      | cons stay rest => simpa [Item.moveTo, hhistory] using hstart
    · obtain hstay | hstay := List.mem_append.1 hstay
      · exact hclosed.placed stay hstay
      · obtain rfl := List.mem_singleton.1 hstay
        exact ⟨hreached, move.target, hgoal, rfl⟩

/-! ## Sessions -/

/-- In every session that does not set the clock back, the history of an item is a chronicle: it is
not empty, its last stay is open and in the item's status, each earlier stay ended when the next one
began, stays began in the order of time, and the first one when the item was created. Its version is
one more than the number of its saves. If it is never bound to another version, its history starts
at the initial status of its workflow, and each stay is in the stage of a status that can be reached
along the table of moves. -/
theorem history_chronicled {s : System} (new : s.New) (unsaved : s.saves = [])
    (coherent : s.registry.Coherent) {ops : List Operation} (forward : ∀ op ∈ ops, op.isForward)
    {id : String} {item : Item} (stored : (s.through ops).items.get? id = some item) :
    item.Chronicled ∧ item.version = 1 + (s.through ops).saves.count id ∧
      ((∀ op ∈ ops, op.migrated? ≠ some id) → ∃ w,
        (s.through ops).registry.version? item.team item.workflowVersion = some w ∧
          w.Charts item.history) := by
  have hstart : s.core.Chronicles s.settings.maxCascadeDepth := by
    have hnone (id : String) : s.core.items.get? id = none := by
      simp [System.core, new.items]
    refine ⟨rfl, ?_, ?_, ?_, ?_, fun id _ => by simp [System.core, unsaved]⟩ <;>
      intro id item hitem <;> simp [hnone] at hitem
  obtain ⟨-, hend⟩ := chronicles_through hstart forward
  refine ⟨hend.chronicled id item stored, hend.counted id item stored, fun kept => ?_⟩
  obtain ⟨w, hw, -, hcharts⟩ := lasting_charts.through new coherent kept stored
  exact ⟨w, hw, hcharts⟩

/-- An item is written between its moves, and time goes by. -/
def travelled : List Operation :=
  sampleSession [] ++
    [.create { team := "t", id := some "i" }, .advance (.int 60), .move "i" (.str "B") {},
      .setCriterion "i" "tested" (.bool true), .advance (.int 60), .move "i" (.str "Z") {}]

theorem history_chronicled_travelled :
    ∃ item, (System.through {} travelled).items.get? "i" = some item ∧
      item.history.map (·.status) = ["A", "B", "Z"] ∧ item.version = 4 ∧ item.Chronicled ∧
      item.version = 1 + (System.through {} travelled).saves.count "i" ∧
      ∃ w, (System.through {} travelled).registry.version? item.team item.workflowVersion = some w ∧
        w.Charts item.history := by
  have hrun : ((System.through {} travelled).items.get? "i").map
      (fun item => (item.history.map (·.status), item.version)) =
        some (["A", "B", "Z"], 4) := by decide +kernel
  obtain ⟨item, hitem, hfacts⟩ := Option.map_eq_some_iff.1 hrun
  obtain ⟨hstatuses, hversion⟩ := Prod.mk.inj hfacts
  have hforward : ∀ op ∈ travelled, op.isForward := by decide +kernel
  obtain ⟨hchronicled, hcount, hcharts⟩ :=
    history_chronicled (System.new_default {}) rfl Registry.coherent_empty hforward hitem
  exact ⟨item, hitem, hstatuses, hversion, hchronicled, hcount, hcharts (by decide +kernel)⟩

end Stageflow
