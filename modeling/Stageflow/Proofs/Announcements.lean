import Mathlib.Data.List.Perm.Subperm
import Stageflow.Proofs.Core.Session
import Stageflow.Proofs.Refusals
import Stageflow.Proofs.Tables
import Stageflow.Proofs.Workers

/-!
# Every movement is announced once

An item's history tells of its movements, and so do the events that subscribers are given. An event
is given to the subscribers one after another, and what the first ones do about it can move the item
again and announce that before the others have heard of the first movement. So what is counted here
are three things: how often a movement was made, how often a subscriber was told of it, and how
often that is pending. `Account` follows one movement and one subscriber through a run; only a
worker that never comes back takes pending movements with it.
-/

namespace Stageflow

open Run Stageflow.Core

/-! ## Movements -/

/-- What is told of a movement: from which status, if from any, to which one, and when. -/
structure Movement where
  source : Option String
  target : String
  time : Instant
  deriving DecidableEq, Repr

/-- The movement that an event tells of. -/
def Moved.movement (m : Moved) : Movement := ⟨m.source, m.target, m.time⟩

/-- The movements that a history tells of, behind a status if there is one. -/
def movementsAfter : Option String → List Stay → List Movement
  | _, [] => []
  | source, stay :: rest =>
    ⟨source, stay.status, stay.enteredAt⟩ :: movementsAfter (some stay.status) rest

/-- The movements of an item, in their order. -/
def Item.movements (item : Item) : List Movement := movementsAfter none item.history

/-- The movements of an item under an id; there are none if none is stored. -/
def Items.movementsOf (items : Items) (id : String) : List Movement :=
  match items.get? id with
  | some item => item.movements
  | none => []

/-- The movement of an item that a delivery tells a subscriber of. -/
def heard? (subscriber : Subscriber) (id : String) : Subscriber × Event → Option Movement
  | (other, .moved m) => if other = subscriber ∧ m.item = id then some m.movement else none
  | (_, .signal _) => none

/-- The movements of an item that a subscriber was told of, newest first. -/
def Core.heard (c : Core) (subscriber : Subscriber) (id : String) : List Movement :=
  c.delivered.filterMap (heard? subscriber id)

theorem movementsAfter_append (source : Option String) (earlier : List Stay) (last next : Stay) :
    movementsAfter source (earlier ++ [last, next]) =
      movementsAfter source (earlier ++ [last]) ++
        [⟨some last.status, next.status, next.enteredAt⟩] := by
  induction earlier generalizing source with
  | nil => rfl
  | cons stay rest ih => simp [movementsAfter, ih]

theorem movementsAfter_close (source : Option String) (earlier : List Stay) (last : Stay)
    (now : Instant) :
    movementsAfter source (earlier ++ [last.close now]) =
      movementsAfter source (earlier ++ [last]) := by
  induction earlier generalizing source with
  | nil => rfl
  | cons stay rest ih => simp [movementsAfter, ih]

namespace Item

variable {item : Item}

/-- A move adds one movement, out of the status that the item was in. -/
theorem movements_moveTo (stands : item.Stands) (status stage : String) (now : Instant)
    (version : Int) :
    ({ item.moveTo status stage now with version } : Item).movements =
      item.movements ++ [⟨some item.status, status, now⟩] := by
  obtain ⟨earlier, last, hhistory, hopen, hstatus⟩ := stands
  have hmoved := history_moveTo hhistory hopen status stage now
  simp only [Item.movements]
  rw [hmoved, hhistory, movementsAfter_append, movementsAfter_close, ← hstatus]
  rfl

theorem stands_moveTo (status stage : String) (now : Instant) (version : Int) :
    ({ item.moveTo status stage now with version } : Item).Stands :=
  ⟨closeLast now item.history, ⟨status, stage, now, none⟩, rfl, rfl, rfl⟩

end Item

/-- What becomes of movements when an item is stored under its id. -/
theorem Items.movementsOf_put {items : Items} {item : Item} {more : List Movement}
    (h : item.movements = items.movementsOf item.id ++ more) (id : String) :
    Items.movementsOf (items.put item.id item) id =
      items.movementsOf id ++ if item.id = id then more else [] := by
  by_cases hid : item.id = id
  · subst hid
    simpa [Items.movementsOf] using h
  · simp [Items.movementsOf, Table.get?_put_of_ne (Ne.symm hid), hid]

/-! ## One movement and one subscriber -/

/-- A movement of an item and a subscriber that is to be told of it, among the subscribers of a
system. Each time that the subscriber is listed it is told once more. -/
structure Account where
  subscriber : Subscriber
  item : String
  movement : Movement
  limit : Int
  subscribers : List Subscriber
  conducts : Collaborator → Conduct
  missing : Nat
  stuck : Nat

namespace Account

variable {a : Account} {c : Core} {pend pend' : List Moved} {m : Moved}

/-- How often the subscriber is listed. -/
def times (a : Account) : Nat := a.subscribers.count a.subscriber

/-- How often the subscriber was told of the movement. -/
def told (a : Account) (c : Core) : Nat := (c.heard a.subscriber a.item).count a.movement

/-- How often the movement was made. -/
def made (a : Account) (c : Core) : Nat := (c.items.movementsOf a.item).count a.movement

/-- Whether an event tells of the movement. -/
def concerns (a : Account) (m : Moved) : Bool := m.item = a.item ∧ m.movement = a.movement

/-- How often the subscriber has still to be told of the movement. -/
def pending (a : Account) (pend : List Moved) : Nat := pend.countP a.concerns

/-- What is true of a movement at any time, also when some of what is pending is given up: it was
not told more often than it was made. -/
structure Bounds (a : Account) (pend : List Moved) (c : Core) : Prop where
  limited : c.limit = a.limit
  wired : c.subscribers = a.subscribers
  opened : c.closed = false
  conducted : c.conducts = a.conducts
  keyed : ∀ id item, c.items.get? id = some item → item.id = id
  stands : ∀ id item, c.items.get? id = some item → item.Stands
  since : a.stuck ≤ c.stuck
  bound : a.told c + a.pending pend ≤ a.times * a.made c

/-- What is true of a movement while some events are pending: unless a worker got stuck, it was told
as often as it was made, but for what is pending and what was missing before. -/
structure Holds (a : Account) (pend : List Moved) (c : Core) : Prop
    extends a.Bounds pend c where
  calm : (∀ x, a.conducts x ≠ .hanging) → c.stuck = a.stuck
  exact : c.stuck = a.stuck → a.told c + a.pending pend + a.missing = a.times * a.made c

/-- What is true of a movement where a collaborator hangs. -/
structure Hangs (a : Account) (pend : List Moved) (c : Core) : Prop
    extends a.Bounds pend c where
  hanging : ∃ x, a.conducts x = .hanging

theorem pending_singleton :
    a.pending [m] = if m.item = a.item ∧ m.movement = a.movement then 1 else 0 := by
  simp [pending, concerns, List.countP_cons]

theorem pending_cons : a.pending (m :: pend) = a.pending pend + a.pending [m] := by
  simp [pending, List.countP_cons]

theorem pending_replicate (n : Nat) :
    a.pending (List.replicate n m ++ pend) = n * a.pending [m] + a.pending pend := by
  induction n with
  | zero => simp
  | succ n ih =>
    rw [List.replicate_succ, List.cons_append, pending_cons, ih, Nat.succ_mul]
    omega

theorem told_deliver (subscriber : Subscriber) :
    a.told (c.deliver subscriber (.moved m)) =
      a.told c + if subscriber = a.subscriber then a.pending [m] else 0 := by
  by_cases hsubscriber : subscriber = a.subscriber <;> by_cases hitem : m.item = a.item <;>
    simp [told, Core.heard, Core.deliver, heard?, pending_singleton, hsubscriber, hitem,
      List.count_cons]

/-- What is pending may be given up. -/
theorem Hangs.drop (h : a.Hangs (pend' ++ pend) c) : a.Hangs pend c := by
  refine ⟨⟨h.limited, h.wired, h.opened, h.conducted, h.keyed, h.stands, h.since, ?_⟩, h.hanging⟩
  have hbound := h.bound
  simp only [pending, List.countP_append] at hbound ⊢
  omega

namespace Holds

/-- A delivery turns what is pending into what is told. -/
theorem deliver (h : a.Holds pend c) {subscriber : Subscriber} {event : Event}
    (kept : a.told (c.deliver subscriber event) + a.pending pend' = a.told c + a.pending pend) :
    a.Holds pend' (c.deliver subscriber event) := by
  refine ⟨⟨h.limited, h.wired, h.opened, h.conducted, h.keyed, h.stands, h.since, ?_⟩, h.calm,
    fun hstuck => ?_⟩
  · exact kept ▸ h.bound
  · exact kept ▸ h.exact hstuck

/-- The subscriber is told of a pending movement. -/
theorem hear (h : a.Holds (m :: pend) c) : a.Holds pend (c.deliver a.subscriber (.moved m)) := by
  have hpending : a.pending (m :: pend) = a.pending pend + a.pending [m] := pending_cons
  refine h.deliver ?_
  rw [told_deliver, if_pos rfl]
  omega

/-- Another subscriber is told of a movement. -/
theorem overhear (h : a.Holds pend c) {subscriber : Subscriber}
    (other : subscriber ≠ a.subscriber) : a.Holds pend (c.deliver subscriber (.moved m)) := by
  refine h.deliver ?_
  rw [told_deliver, if_neg other, Nat.add_zero]

/-- An item is stored, and what it has been through since becomes pending. -/
theorem put (h : a.Holds pend c) {item : Item} {saves : List String} (stands : item.Stands)
    (kept : a.times * a.made { c with items := c.items.put item.id item, saves } + a.pending pend =
      a.times * a.made c + a.pending pend') :
    a.Holds pend' { c with items := c.items.put item.id item, saves } := by
  refine ⟨⟨h.limited, h.wired, h.opened, h.conducted,
    Table.forall_get?_put rfl fun id item _ => h.keyed id item,
    Table.forall_get?_put stands fun id item _ => h.stands id item, h.since, ?_⟩, h.calm,
    fun hstuck => ?_⟩
  · have hbound := h.bound
    change a.told c + _ ≤ _
    omega
  · have hexact := h.exact hstuck
    change a.told c + _ + _ = _
    omega

/-- An item that is stored with the same history as before. -/
theorem same (h : a.Holds pend c) {old new : Item} (stored : c.items.get? old.id = some old)
    (id : new.id = old.id) (status : new.status = old.status)
    (history : new.history = old.history) : a.Holds pend (c.save new) := by
  obtain ⟨earlier, last, hhistory, hopen, hlast⟩ := h.stands old.id old stored
  have hmovements : new.movements = c.items.movementsOf new.id ++ [] := by
    simp [Item.movements, Items.movementsOf, id, stored, history]
  refine h.put ⟨earlier, last, history.trans hhistory, hopen, hlast.trans status.symm⟩ ?_
  simp only [made, Items.movementsOf_put hmovements]
  simp

/-- An item that is stored with one movement more, of which every subscriber is to be told. -/
theorem more (h : a.Holds pend c) {item : Item} {saves : List String} (stands : item.Stands)
    (named : m.item = item.id)
    (movements : item.movements = c.items.movementsOf item.id ++ [m.movement]) :
    a.Holds (List.replicate a.times m ++ pend)
      { c with items := c.items.put item.id item, saves } := by
  refine h.put stands ?_
  have hmade : a.made { c with items := c.items.put item.id item, saves } =
      a.made c + a.pending [m] := by
    rw [made, Items.movementsOf_put movements, List.count_append, pending_singleton, named]
    by_cases hid : item.id = a.item <;> simp [made, hid, List.count_singleton]
  rw [hmade, pending_replicate, Nat.mul_add]
  omega

/-- The clock, the versions, the tracks and the known rules are not read. -/
theorem unread (h : a.Holds pend c) (clock : Instant) (registry : Registry)
    (tracks : Table String Track) (rules : Table (String × Int) RuleBook) :
    a.Holds pend { c with clock, registry, tracks, rules } :=
  ⟨⟨h.limited, h.wired, h.opened, h.conducted, h.keyed, h.stands, h.since, h.bound⟩, h.calm,
    h.exact⟩

end Holds

/-- A worker that is stuck explains what was not told. -/
theorem Hangs.rescued (h : a.Hangs pend c) : a.Holds pend { c with stuck := c.stuck + 1 } := by
  have hsince := h.since
  obtain ⟨x, hhanging⟩ := h.hanging
  refine ⟨⟨h.limited, h.wired, h.opened, h.conducted, h.keyed, h.stands, ?_, h.bound⟩,
    fun hcalm => absurd hhanging (hcalm x), fun hstuck => ?_⟩
  · change a.stuck ≤ c.stuck + 1
    omega
  · have hstuck : c.stuck + 1 = a.stuck := hstuck
    omega

/-- Whatever is pending, a movement that is made is pending as well, once for each time that the
subscriber is listed. -/
theorem moving (a : Account) (pend : List Moved) :
    Moving a.limit (a.Holds pend) (a.Hangs pend)
      fun m => a.Holds (List.replicate a.times m ++ pend) where
  limited h := h.limited
  keyed h := h.keyed _ _
  touched h stored touches := h.same stored touches.id touches.status touches.history
  learned h _ := h.unread _ _ _ _
  signalled _ _ h := h.deliver rfl
  hangs h hhanging := ⟨h.toBounds, _, h.conducted ▸ hhanging⟩
  rescued h := h.rescued
  pending h := h.limited
  committed := by
    intro c w item target move actor h stored _ _
    refine h.more (Item.stands_moveTo ..) rfl ?_
    rw [Item.movements_moveTo (h.stands _ _ stored)]
    simp [Items.movementsOf, stored, Item.moveTo, Move.event, Moved.movement]
  created := by
    intro c w team id stage complexity attributes actor h _ _ free
    have hstands : ({ w.newItem id complexity attributes stage.id c.clock with
        version := 1 } : Item).Stands := ⟨[], _, rfl, rfl, rfl⟩
    refine h.more hstands rfl ?_
    simp [Items.movementsOf, Workflow.newItem, free, Item.movements, movementsAfter,
      Workflow.birth, Moved.movement]

/-! ## Cascades -/

/-- Every listing that is left is served in its turn, whatever moves and is announced meanwhile. -/
theorem ends_deliveries {announce : Event → Run Unit}
    (hmoves : ∀ pend, m.depth ≤ a.limit →
      Moves (a.Holds pend) (a.Hangs pend) (m.depth + 1) announce)
    {listed : List Subscriber} {s : System}
    (hs : a.Holds (List.replicate (listed.count a.subscriber) m ++ pend) s.core) :
    Ends (On (a.Holds pend)) (On (a.Hangs pend))
      (listed.forM (deliverSafely announce (.moved m))) s fun _ => On (a.Holds pend) := by
  induction listed generalizing s with
  | nil => exact hs
  | cons subscriber rest ih =>
    -- while one is told, what the others are still to be told stays pending
    let left := List.replicate (rest.count a.subscriber) m ++ pend
    have hdelivered : a.Holds left (s.core.deliver subscriber (.moved m)) := by
      by_cases hsubscriber : subscriber = a.subscriber
      · subst hsubscriber
        rw [List.count_cons_self, List.replicate_succ] at hs
        exact Holds.hear hs
      · rw [List.count_cons_of_ne hsubscriber] at hs
        exact Holds.overhear hs hsubscriber
    have hdeliver : Stays (On (a.Holds left)) (On (a.Hangs left))
        (deliver announce (.moved m) subscriber) :=
      stays_deliver (moving a left).toSteady (fun tracks h => h.unread _ _ tracks _) (hmoves left)
    refine ends_forM_cons.2 ?_
    refine (ends_deliverSafely subscriber fun t ht => ?_).mono fun _ t ht => ih ht
    exact (hdeliver t ((congrArg (a.Holds left) ht).mpr hdelivered)).hanging fun _ => Hangs.drop

/-- An announced movement is told to the subscriber as often as it is listed, over any number of
levels that is left. -/
theorem cascades (a : Account) (pend : List Moved) :
    Cascades a.limit (a.Holds pend) (a.Hangs pend)
      fun m => a.Holds (List.replicate a.times m ++ pend) := by
  intro n
  -- what is announced inside a delivery finds more pending than what is announced around it
  induction n generalizing pend with
  | zero => exact fun _ h => absurd (levels_pos ..) (Nat.not_lt_of_le h)
  | succ n ih =>
    rintro _ h m s rfl hm
    have hopened : s.dispatcher.closed = false := hm.opened
    have hwired : s.dispatcher.subscribers = a.subscribers := hm.wired
    refine ends_publishWith_of_handOver ?_
    simp only [handOver, ends_bind, ends_get, hopened, hwired, Bool.not_false, if_true]
    exact ends_deliveries (fun pend hdepth => moves_of_settles (moving a pend)
      (ih pend _ (levels_next hdepth h))) hm

/-! ## Sessions -/

/-- An operation that forges no move leaves nothing pending. -/
theorem stays_perform (a : Account) {op : Operation} (unforged : op.isUnforged) :
    Stays (On (a.Holds [])) (On (a.Hangs [])) op.perform := by
  have hplain {op : Operation} (plain : op.isPlain) :
      Stays (On (a.Holds [])) (On (a.Hangs [])) op.perform :=
    Operation.stays_perform (moving a []) (cascades a []) plain
  have hpublished {op : Operation} (h : op = .activateAll ∨ ∃ team, op = .activate team) :
      Stays (On (a.Holds [])) (On (a.Hangs [])) op.perform :=
    Operation.stays_activations (fun registry h => h.unread _ registry _ _) h
  cases op with
  | migrate item version =>
    refine .bind (stays_migrate (moving a []).toSteady ?_) fun _ => .pure
    exact fun h stored rebinds _ _ => h.same stored rebinds.id rebinds.status rebinds.history
  | deliver event | publish event =>
    cases event with
    | moved m => cases unforged
    | signal signal => exact hplain rfl
  | advance seconds => exact Operation.stays_advance fun h _ => h.unread _ _ _ _
  | activate team => exact hpublished (.inr ⟨team, rfl⟩)
  | activateAll => exact hpublished (.inl rfl)
  | _ => exact hplain rfl

theorem holds_through {s : System} (h : a.Holds [] s.core) (idle : s.IsIdle) {ops : List Operation}
    (unforged : ∀ op ∈ ops, op.isUnforged) : a.Holds [] (s.through ops).core := by
  induction ops generalizing s with
  | nil => exact h
  | cons op rest ih =>
    obtain ⟨hop, hrest⟩ := List.forall_mem_cons.1 unforged
    have hreturns := op.returns_perform
    exact ih ((a.stays_perform hop).after_of_returns hreturns idle h)
      ((hreturns s idle).after fun _ => False.elim) hrest

/-- The account from a core on: what was not told by then stays missing. -/
def reopen (a : Account) (c : Core) : Account :=
  { a with missing := a.times * a.made c - a.told c, stuck := c.stuck }

theorem Bounds.reopen (h : a.Bounds [] c) : (a.reopen c).Holds [] c := by
  refine ⟨⟨h.limited, h.wired, h.opened, h.conducted, h.keyed, h.stands, Nat.le_refl _, h.bound⟩,
    fun _ => rfl, fun _ => ?_⟩
  have hbound : a.told c ≤ a.times * a.made c := h.bound
  exact Nat.add_sub_of_le hbound

end Account

namespace System

/-- The movements that the history of an item tells of. -/
def movementsOf (s : System) (id : String) : List Movement := s.items.movementsOf id

/-- The movements of an item that a subscriber was told of, newest first. -/
def heard (s : System) (subscriber : Subscriber) (id : String) : List Movement :=
  s.core.heard subscriber id

/-- The account of a movement from a system on in which none was made yet. -/
def account (s : System) (subscriber : Subscriber) (item : String) (movement : Movement) :
    Account where
  subscriber
  item
  movement
  limit := s.settings.maxCascadeDepth
  subscribers := s.dispatcher.subscribers
  conducts := s.runner.conducts
  missing := 0
  stuck := s.runner.stuck

theorem New.holds_account {s : System} (new : s.New) (opened : s.dispatcher.closed = false)
    (unheard : s.delivered = []) (subscriber : Subscriber) (id : String) (movement : Movement) :
    (s.account subscriber id movement).Holds [] s.core := by
  have hnone (id : String) : s.core.items.get? id = none := congrArg (Table.get? id) new.items
  have hdelivered : s.core.delivered = [] := unheard
  have htold : (s.account subscriber id movement).told s.core = 0 := by
    simp [Account.told, Core.heard, hdelivered]
  have hmade : (s.account subscriber id movement).made s.core = 0 := by
    simp [Account.made, Items.movementsOf, hnone]
  refine ⟨⟨rfl, rfl, opened, rfl, by simp [hnone], by simp [hnone], Nat.le_refl _, ?_⟩,
    fun _ => rfl, fun _ => ?_⟩
  · rw [htold]
    exact Nat.zero_le _
  · rw [htold, hmade]
    rfl

end System

/-! ## Operations that announce nothing -/

namespace Operation

/-- Whether an operation records something on an item, but does not move it. -/
def isRecord : Operation → Bool
  | .signOff .. | .setCriterion .. | .migrate .. => true
  | _ => false

/-- Whether an operation asks a system for something that it refuses: what it cannot wait for is not
refused, since it is done. -/
def IsRefused (op : Operation) (s : System) : Prop :=
  op.isRequest ∧ ∃ fault t, op.answer Run.publish s = .error (.raised fault) t ∧
    fault ≠ .budgetTooLong

theorem overlooks_delivered (delivered : List (Subscriber × Event)) :
    Overlooks fun s => s.delivered = delivered where
  silent h hs := (congrArg System.delivered h).trans hs
  remarks remark h hs := by
    refine (congrArg System.delivered h).trans ?_
    rw [System.delivered, List.filterMap_cons, delivered?_remark remark]
    exact hs

theorem stays_record {I H : System → Prop} (h : Overlooks I) {op : Operation}
    (record : op.isRecord) : Run.Stays I H op.perform := by
  cases op with
  | signOff item stage role approver => exact .bind (h.signOff _ _ _ _) fun _ => .pure
  | setCriterion item criterion satisfied => exact .bind (h.setCriterion _ _ _) fun _ => .pure
  | migrate item version => exact .bind (h.migrate _ _) fun _ => .pure
  | _ => cases record

/-- Nothing is delivered where nothing moves. -/
theorem delivered_after {op : Operation} {s : System} (silent : op.isRecord ∨ op.IsRefused s) :
    (op.perform.after s).delivered = s.delivered := by
  obtain record | ⟨request, fault, t, refused, early⟩ := silent
  · let Told (t : System) : Prop := t.delivered = s.delivered
    have hstays : Run.Stays Told Told op.perform := stays_record (overlooks_delivered _) record
    exact (hstays s rfl).after fun _ => id
  · have hrefused := spares_answer failsLate_publish request s
    unfold Run.SparesOrLate FailsBy at hrefused
    rw [refused] at hrefused
    rw [after_perform, Run.after, refused]
    exact (hrefused.resolve_right fun late => early late.1).delivered

end Operation

/-- Every movement is announced, and nothing else is. Of the movements that the history of an item
tells of, each subscriber was told once for each time that it is listed, whatever rules did
meanwhile and whichever subscribers failed. Only an action that hung takes with it what it was about
to announce: movements may then be missing, but never one too many, and what was made while no
action hung was told. What is only recorded, and what is refused, announces nothing. -/
theorem movements_announced {s : System} (new : s.New) (opened : s.dispatcher.closed = false)
    (unheard : s.delivered = []) (idle : s.IsIdle) {before later : List Operation}
    (unforged : ∀ op ∈ before ++ later, op.isUnforged) (subscriber : Subscriber) (id : String) :
    let s₁ := s.through before
    let t := s₁.through later
    let owed (u : System) :=
      (List.replicate (s.dispatcher.subscribers.count subscriber) (u.movementsOf id)).flatten
    (t.heard subscriber id).Subperm (owed t) ∧
      ((∀ x, s.runner.conducts x ≠ .hanging) → t.runner.stuck = s.runner.stuck) ∧
      (t.runner.stuck = s.runner.stuck → (t.heard subscriber id).Perm (owed t)) ∧
      (t.runner.stuck = s₁.runner.stuck →
        (t.heard subscriber id ++ owed s₁).Perm (s₁.heard subscriber id ++ owed t)) ∧
      ∀ (u : System) (op : Operation), op.isRecord ∨ op.IsRefused u →
        (op.perform.after u).delivered = u.delivered := by
  intro s₁ t owed
  obtain ⟨hbefore, hlater⟩ := List.forall_mem_append.1 unforged
  let account := s.account subscriber id
  have hstart (movement : Movement) : (account movement).Holds [] s.core :=
    new.holds_account opened unheard subscriber id movement
  have hidle : s₁.IsIdle := idle_through idle before
  have hmiddle (movement : Movement) : (account movement).Holds [] s₁.core :=
    Account.holds_through (hstart movement) idle hbefore
  have hend (movement : Movement) : (account movement).Holds [] t.core :=
    Account.holds_through (hmiddle movement) hidle hlater
  have hsince (movement : Movement) : ((account movement).reopen s₁.core).Holds [] t.core :=
    Account.holds_through (hmiddle movement).reopen hidle hlater
  have howed (u : System) (movement : Movement) : (owed u).count movement =
      (account movement).times * (account movement).made u.core := by
    rw [List.count_flatten, List.map_replicate, List.sum_replicate_nat]
    rfl
  refine ⟨List.subperm_ext_iff.2 fun movement _ => ?_, (hend ⟨none, "", s.clock⟩).calm,
    fun hstuck => ?_, fun hstuck => ?_, fun u op => Operation.delivered_after⟩
  · rw [howed]
    exact (hend movement).bound
  · refine List.perm_iff_count.2 fun movement => ?_
    rw [howed]
    exact (hend movement).exact hstuck
  · refine List.perm_iff_count.2 fun movement => ?_
    let a := account movement
    have hbound : a.told s₁.core ≤ a.times * a.made s₁.core := (hmiddle movement).bound
    have hexact : a.told t.core + (a.times * a.made s₁.core - a.told s₁.core) =
        a.times * a.made t.core := (hsince movement).exact hstuck
    rw [List.count_append, List.count_append, howed, howed]
    change a.told t.core + a.times * a.made s₁.core = a.told s₁.core + a.times * a.made t.core
    omega

/-- An item is created and moved to where a rule moves it on. -/
def movedOn : List Operation :=
  [.create { team := "t", id := some "i" }, .move "i" (.str "B") {}]

theorem movements_announced_movedOn :
    let s : System := { dispatcher.subscribers := [.failing "f", .automation, .recorder] }
    let t := (s.through (sampleSession [onwardRule "B" "C"])).through movedOn
    ((t.movementsOf "i").map fun m => (m.source, m.target)) =
        [(none, "A"), (some "A", "B"), (some "B", "C")] ∧
      (t.heard .recorder "i").Perm (t.movementsOf "i") ∧
      (t.heard (.failing "f") "i").Perm (t.movementsOf "i") := by
  intro s t
  have hmovements : ((t.movementsOf "i").map fun m => (m.source, m.target)) =
      [(none, "A"), (some "A", "B"), (some "B", "C")] := by decide +kernel
  have hunforged : ∀ op ∈ sampleSession [onwardRule "B" "C"] ++ movedOn, op.isUnforged := by
    decide +kernel
  have hnew : s.New := ⟨rfl, rfl, rfl, fun _ _ h => by cases h⟩
  have hcalm (x : Collaborator) : s.runner.conducts x ≠ .hanging := Conduct.noConfusion
  have htold (subscriber : Subscriber) (once : s.dispatcher.subscribers.count subscriber = 1) :
      (t.heard subscriber "i").Perm (t.movementsOf "i") := by
    obtain ⟨-, hstuck, hperm, -⟩ := movements_announced hnew rfl rfl rfl hunforged subscriber "i"
    simpa only [once, List.replicate_one, List.flatten_singleton] using hperm (hstuck hcalm)
  exact ⟨hmovements, htold .recorder rfl, htold (.failing "f") rfl⟩

/-- A rule moves an item on, and what another rule does about that hangs. -/
def abandoned : List Operation :=
  sampleSession [onwardRule "B" "C",
      .obj [("id", .str "tell"), ("trigger", .str "transition"), ("to", .str "C"),
        ("actions", .arr [.obj [("type", .str "notify"), ("channel", .str "x")]])]] ++
    movedOn

/-- The action that moved the item on is given up before the recorder is told of the move. -/
theorem movement_unannounced_abandoned :
    let s : System := { runner.conducts := fun | .notifier => .hanging | _ => .recording }
    let t := s.through abandoned
    s.dispatcher.subscribers.count .recorder = 1 ∧ (∀ op ∈ abandoned, op.isUnforged) ∧
      (t.movementsOf "i").length = 3 ∧ (t.heard .recorder "i").length = 2 ∧
      ¬ (t.heard .recorder "i").Perm (t.movementsOf "i") := by
  intro s t
  have hmade : (t.movementsOf "i").length = 3 := by decide +kernel
  have hheard : (t.heard .recorder "i").length = 2 := by decide +kernel
  refine ⟨rfl, by decide +kernel, hmade, hheard, fun hperm => ?_⟩
  have hlength := hperm.length_eq
  omega

end Stageflow
