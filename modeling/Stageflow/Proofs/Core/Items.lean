import Stageflow.Proofs.Evolution.Moves
import Stageflow.Proofs.Outcomes

/-!
# The core of a system

A `Core` is what invariants of items, of what is delivered and of what is measured are about: the
clock, the versions of workflows, the items with their saves, the deliveries, the tracks, and the
wiring. Most computations leave it as it is. `Steady` says of a property of cores that it lasts
while items are only touched, and `Moving` that a move made from it is pending: it still has to be
announced.
-/

namespace Stageflow

open Run

/-- The item that a note of a save names. -/
def Notice.saved? : Notice → Option String
  | .saved item => some item.id
  | _ => none

/-- The delivery that a note names. -/
def Notice.delivered? : Notice → Option (Subscriber × Event)
  | .delivered subscriber event => some (subscriber, event)
  | _ => none

/-- Whether a note names no save and no delivery. -/
def Notice.isPlain : Notice → Bool
  | .saved _ | .delivered .. => false
  | _ => true

/-- What invariants of items, of what is delivered and of what is measured are about. -/
structure Core where
  clock : Instant
  limit : Int
  registry : Registry
  items : Items
  saves : List String
  delivered : List (Subscriber × Event)
  tracks : Table String Track
  rules : Table (String × Int) RuleBook
  subscribers : List Subscriber
  closed : Bool
  conducts : Collaborator → Conduct
  stuck : Nat

namespace System

/-- The items that were saved, one entry for each save that was accepted, newest first. -/
def saves (s : System) : List String := s.journal.filterMap Notice.saved?

/-- The events that were given to subscribers, newest first. -/
def delivered (s : System) : List (Subscriber × Event) := s.journal.filterMap Notice.delivered?

/-- The core of a system. -/
def core (s : System) : Core where
  clock := s.clock
  limit := s.settings.maxCascadeDepth
  registry := s.registry
  items := s.items
  saves := s.saves
  delivered := s.delivered
  tracks := s.metrics.tracks
  rules := s.automation.rules
  subscribers := s.dispatcher.subscribers
  closed := s.dispatcher.closed
  conducts := s.runner.conducts
  stuck := s.runner.stuck

end System

/-- A write of an item that leaves it where it is, bound as it is. -/
structure Item.Touches (new old : Item) : Prop where
  id : new.id = old.id
  team : new.team = old.team
  workflowVersion : new.workflowVersion = old.workflowVersion
  status : new.status = old.status
  history : new.history = old.history
  createdAt : new.createdAt = old.createdAt
  version : new.version = old.version + 1

/-- The event that tells of a new item. -/
def Workflow.birth (w : Workflow) (team id : String) (stage : Stage) (actor : Actor)
    (now : Instant) : Moved where
  item := id
  team
  workflowVersion := w.version
  source := none
  target := w.initialStatus
  sourceStage := none
  targetStage := stage.id
  actor := actor.name
  time := now
  depth := actor.depth

namespace Core

/-- The core after an item is saved. -/
def save (c : Core) (item : Item) : Core :=
  { c with items := c.items.put item.id item, saves := item.id :: c.saves }

/-- The core after a decided move of an item is saved. -/
def commit (c : Core) (item : Item) (move : Move) : Core :=
  c.save { item.moveTo move.route.target move.target.id c.clock with version := item.version + 1 }

/-- The core after an item is created. -/
def create (c : Core) (w : Workflow) (id : String) (complexity : Option String)
    (attributes : Fields) (stage : Stage) : Core :=
  let item := { w.newItem id complexity attributes stage.id c.clock with version := 1 }
  { c with items := c.items.put id item }

/-- The core after an event is given to a subscriber. -/
def deliver (c : Core) (subscriber : Subscriber) (event : Event) : Core :=
  { c with delivered := (subscriber, event) :: c.delivered }

/-- A property of cores that lasts while items are only touched, under a limit of cascades. What
hangs leaves a core of which `H` holds, and a worker that never comes back. -/
structure Steady (limit : Int) (I H : Core → Prop) : Prop where
  limited : ∀ {c}, I c → c.limit = limit
  keyed : ∀ {c id item}, I c → c.items.get? id = some item → item.id = id
  touched : ∀ {c old new}, I c → c.items.get? old.id = some old → new.Touches old → I (c.save new)
  learned : ∀ {c team version w}, I c → c.registry.version? team version = some w →
    I { c with rules := c.rules.put (team, version) w.rules }
  signalled : ∀ {c} subscriber signal, I c → I (c.deliver subscriber (.signal signal))
  hangs : ∀ {c x}, I c → c.conducts x = .hanging → H c
  rescued : ∀ {c}, H c → I { c with stuck := c.stuck + 1 }

/-- A steady property that makes moves pending: `P` holds of a move and the core it is made in. -/
structure Moving (limit : Int) (I H : Core → Prop) (P : Moved → Core → Prop) : Prop
    extends Steady limit I H where
  pending : ∀ {m c}, P m c → c.limit = limit
  committed : ∀ {c w item target move} actor, I c → c.items.get? item.id = some item →
    c.registry.version? item.team item.workflowVersion = some w →
    w.decide item target = .ok move → P (move.event item actor c.clock) (c.commit item move)
  created : ∀ {c w team id stage} complexity attributes actor, I c →
    c.registry.active.get? team = some w → w.stageOf w.initialStatus = .ok stage →
    c.items.get? id = none →
    P (w.birth team id stage actor c.clock) (c.create w id complexity attributes stage)

/-- A property of the core, as one of the system. -/
abbrev On (I : Core → Prop) (s : System) : Prop := I s.core

/-- Announcing pending moves of a depth leads back to what holds between moves. -/
def Settles (I H : Core → Prop) (P : Moved → Core → Prop) (depth : Int)
    (announce : Event → Run Unit) : Prop :=
  ∀ m s, m.depth = depth → P m s.core → Ends (On I) (On H) (announce (.moved m)) s fun _ => On I

/-- Moves by actors of a depth preserve a property. -/
def Moves (I H : Core → Prop) (depth : Int) (announce : Event → Run Unit) : Prop :=
  ∀ id target (actor : Actor), actor.depth = depth →
    Stays (On I) (On H) (moveItem announce id target actor)

end Core

namespace Run

open Stageflow.Core

variable {I H : Core → Prop} {P : Moved → Core → Prop} {limit : Int} {s : System}
  {announce : Event → Run Unit}

/-! ## Computations that leave the core as it is -/

theorem stays_modify {change : System → System} (h : ∀ s, (change s).core = s.core) :
    Stays (On I) (On H) (modify change : Run PUnit) :=
  .modify fun s hs => (congrArg I (h s)).mpr hs

theorem core_note {notice : Notice} (h : notice.isPlain) (s : System) :
    ({ s with journal := notice :: s.journal } : System).core = s.core := by
  cases notice <;> first | rfl | cases h

theorem stays_note {notice : Notice} (h : notice.isPlain) : Stays (On I) (On H) (note notice) :=
  stays_modify (core_note h)

theorem stays_newId : Stays (On I) (On H) newId := by
  intro s hs
  simp only [newId, ends_bind, ends_get, ends_set, ends_pure]
  exact hs

/-- Notes made one after another, none of them of a save or a delivery. -/
theorem stays_forM_note {α : Type} (f : α → Notice) (h : ∀ x, (f x).isPlain) (xs : List α) :
    Stays (On I) (On H) (xs.forM fun x => note (f x)) :=
  .forM fun x _ => stays_note (h x)

/-! ## Loading and writing -/

/-- A rival's write only touches its item. -/
theorem on_overtake (steady : Steady limit I H) (hs : I s.core) {id : String} {item : Item}
    (hitem : s.items.get? id = some item) : I (overtake s id item).core := by
  obtain rfl := steady.keyed hs hitem
  unfold overtake
  split
  · have htouches : ({ item with version := item.version + 1 } : Item).Touches item :=
      ⟨rfl, rfl, rfl, rfl, rfl, rfl, rfl⟩
    exact steady.touched hs hitem htouches
  · exact hs

theorem ends_loadItem (steady : Steady limit I H) (hs : I s.core) (id : String) :
    Ends (On I) (On H) (loadItem id) s fun item t => I t.core ∧ item.id = id ∧ t.Holds item := by
  simp only [loadItem, ends_bind, ends_get, ends_ofExcept, Items.load]
  cases hitem : s.items.get? id with
  | none => exact hs
  | some item =>
    obtain rfl := steady.keyed hs hitem
    exact ⟨on_overtake steady hs hitem, rfl, holds_overtake hitem⟩

theorem stays_loadItem (steady : Steady limit I H) (id : String) :
    Stays (On I) (On H) (loadItem id) :=
  fun _ hs => (ends_loadItem steady hs id).mono fun _ _ ht => ht.1

/-- What writing ends in: the stored item is the loaded one, and is saved. -/
theorem ends_writeItem (hs : I s.core) {old : Item} (new : Item) (hold : s.Holds old)
    (hid : new.id = old.id) :
    Ends (On I) (On H) (writeItem new old.version) s fun stored t =>
      stored = { new with version := old.version + 1 } ∧ s.items.get? old.id = some old ∧
        t = s.write stored := by
  simp only [writeItem, ends_bind, ends_get, Items.save, hid]
  cases hcurrent : s.items.get? old.id with
  | none => exact hs
  | some current =>
    by_cases hversion : current.version = old.version
    · obtain rfl : current = old := hold current hcurrent hversion
      simp only [ne_eq, not_true_eq_false, if_false, ends_bind, ends_set, ends_note, ends_pure]
      simp [System.write]
    · simpa [hversion] using hs

/-- Writing an item that is only touched. -/
theorem ends_touch (steady : Steady limit I H) (hs : I s.core) {old new : Item} (hold : s.Holds old)
    (touches : ({ new with version := old.version + 1 } : Item).Touches old) :
    Ends (On I) (On H) (writeItem new old.version) s fun _ => On I := by
  refine (ends_writeItem hs new hold touches.id).mono ?_
  rintro stored t ⟨rfl, hstored, rfl⟩
  exact steady.touched hs hstored touches

/-- A computation under a lock ends as it does by itself: locks do not show in the core. -/
theorem ends_underLock {α : Type} {id : String} {action : Run α} {Q : α → Core → Prop}
    (hs : I s.core)
    (h : ∀ t, t.core = s.core → Ends (On I) (On H) action t fun a u => Q a u.core) :
    Ends (On I) (On H) (underLock id action) s fun a u => Q a u.core := by
  have hrun := h { s with held := id :: s.held } rfl
  unfold Ends at hrun ⊢
  rw [underLock_apply]
  by_cases hwait : s.settings.waitsTooLong
  · simpa only [hwait, if_true] using hs
  by_cases hheld : id ∈ s.held
  · simpa only [hwait, hheld, Bool.false_eq_true, if_false, if_true] using hs
  simp only [hwait, hheld, Bool.false_eq_true, if_false]
  cases haction : action { s with held := id :: s.held } with
  | ok a t =>
    rw [haction] at hrun
    exact hrun
  | error halt t =>
    rw [haction] at hrun
    cases halt <;> exact hrun

theorem stays_underLock {α : Type} {id : String} {action : Run α}
    (h : Stays (On I) (On H) action) : Stays (On I) (On H) (underLock id action) :=
  fun _ hs => ends_underLock (Q := fun _ => I) hs fun t ht => h t ((congrArg I ht).mpr hs)

theorem ends_workflowOf {I H : System → Prop} (hs : I s) (item : Item) :
    Ends I H (workflowOf item) s fun w t =>
      t = s ∧ s.registry.version? item.team item.workflowVersion = some w := by
  simp only [workflowOf, ends_bind, ends_get, ends_ofExcept, Registry.version]
  cases s.registry.version? item.team item.workflowVersion with
  | none => exact hs
  | some w => simp

/-! ## Moves -/

/-- A committed move is pending. -/
theorem ends_commitMove (moving : Moving limit I H P) (hs : I s.core) (id : String) (target : Json)
    (actor : Actor) :
    Ends (On I) (On H) (commitMove id target actor) s fun passage t =>
      passage.event.depth = actor.depth ∧ P passage.event t.core := by
  simp only [commitMove, ends_bind]
  refine (ends_loadItem moving.toSteady hs id).mono ?_
  rintro item _ ⟨h₁, rfl, hold⟩
  refine (ends_workflowOf h₁ item).mono ?_
  rintro w s₁ ⟨rfl, hw⟩
  simp only [ends_ofExcept]
  cases hmove : w.decide item target with
  | error fault => exact h₁
  | ok move =>
    simp only [ends_get]
    refine (ends_writeItem h₁ (item.moveTo ..) hold rfl).mono ?_
    rintro stored t ⟨rfl, hstored, rfl⟩
    exact ⟨rfl, moving.committed actor h₁ hstored hw hmove⟩

theorem moves_of_settles (moving : Moving limit I H P) {depth : Int}
    (ha : Settles I H P depth announce) : Moves I H depth announce := by
  rintro id target actor rfl s hs
  simp only [moveItem, ends_bind]
  refine (ends_underLock (Q := fun passage c => passage.event.depth = actor.depth ∧
    P passage.event c) hs fun t ht =>
      ends_commitMove moving ((congrArg I ht).mpr hs) id target actor).mono ?_
  rintro passage t ⟨hdepth, hpending⟩
  exact ha passage.event t hdepth hpending

/-! ## Creation -/

theorem ends_levelFor {I H : System → Prop} (hs : I s) {w : Workflow} {request : NewItem} :
    Ends I H (levelFor w request) s fun _ t => t = s := by
  unfold levelFor
  split
  · split
    · exact hs
    · simp
  · simp
  · simp only [ends_bind, ends_ofReading, ends_pure]
    split
    · trivial
    · exact hs

theorem ends_idFor {I H : System → Prop} {given : Option String} :
    Ends I H (idFor given) s fun _ t => ∃ nextId, t = { s with nextId } := by
  have hnew : Ends I H newId s fun _ t => ∃ nextId, t = { s with nextId } := by
    simp only [newId, ends_bind, ends_get, ends_set, ends_pure]
    exact ⟨_, rfl⟩
  unfold idFor
  split
  · split
    · exact hnew
    · exact ⟨s.nextId, rfl⟩
  · exact hnew

/-- A new item is pending as soon as it is stored. -/
theorem stays_createItem (moving : Moving limit I H P) {request : NewItem}
    (ha : Settles I H P request.actor.depth announce) :
    Stays (On I) (On H) (createItem announce request) := by
  intro s hs
  simp only [createItem, ends_bind, ends_get, ends_ofExcept, Registry.activeFor]
  cases hw : s.registry.active.get? request.team with
  | none => exact hs
  | some w =>
    refine (ends_levelFor hs).mono ?_
    rintro complexity t rfl
    cases hstage : w.stageOf w.initialStatus with
    | error _ => exact hs
    | ok stage =>
      refine ends_idFor.mono ?_
      rintro id s₁ ⟨nextId, rfl⟩
      simp only [Items.create]
      by_cases hid : t.items.has id
      · have hstill : I ({ t with nextId } : System).core := hs
        simpa [Workflow.newItem, hid] using hstill
      · have hfree : t.items.get? id = none := by simpa [Table.has] using hid
        simp only [Workflow.newItem, hid, ends_modify, ends_note, ends_pure]
        exact ha _ _ rfl
          (moving.created complexity request.attributes request.actor hs hw hstage hfree)

/-! ## Sign-offs and criteria -/

theorem stays_choicesOf (steady : Steady limit I H) {id : String} :
    Stays (On I) (On H) (choicesOf id) :=
  .bind (stays_loadItem steady id) fun _ => .bind (.bind .get fun _ => .ofExcept) fun _ => .ofExcept

theorem stays_gateOf (steady : Steady limit I H) {id : String} {stage : Option String} :
    Stays (On I) (On H) (gateOf id stage) := by
  refine .bind (stays_loadItem steady id) fun item =>
    .bind (.bind .get fun _ => .ofExcept) fun w => ?_
  split
  · exact .pure
  · exact .bind .ofExcept fun _ => .pure

theorem touches_signOff {w : Workflow} {item signed : Item} {stage role : String} {approver : Json}
    {now : Instant} (h : w.signOff item stage role approver now = .ok (some signed)) :
    ({ signed with version := item.version + 1 } : Item).Touches item := by
  unfold Workflow.signOff at h
  split at h
  · cases h
  · split at h
    · cases h
      exact ⟨rfl, rfl, rfl, rfl, rfl, rfl, rfl⟩
    · cases h

theorem stays_signOff (steady : Steady limit I H) {id stage role : String} {approver : Json} :
    Stays (On I) (On H) (signOff id stage role approver) := by
  refine stays_underLock fun s hs => ?_
  simp only [ends_bind]
  refine (ends_loadItem steady hs id).mono ?_
  rintro item s₁ ⟨h₁, -, hold⟩
  refine (ends_workflowOf h₁ item).mono ?_
  rintro w _ ⟨rfl, -⟩
  simp only [ends_get, ends_ofExcept]
  cases hsigned : w.signOff item stage role approver _ with
  | error fault => exact h₁
  | ok signed =>
    cases signed with
    | none => exact h₁
    | some signed =>
      simp only [ends_bind, ends_pure]
      exact ends_touch steady h₁ hold (touches_signOff hsigned)

theorem stays_setCriterion (steady : Steady limit I H) {id criterion : String} {satisfied : Json} :
    Stays (On I) (On H) (setCriterion id criterion satisfied) := by
  refine stays_underLock fun s hs => ?_
  simp only [ends_bind]
  refine (ends_loadItem steady hs id).mono ?_
  rintro item s₁ ⟨h₁, -, hold⟩
  simp only [ends_get, Item.setCriterion]
  split
  · rename_i changed hchanged
    split at hchanged
    · cases hchanged
    · cases hchanged
      exact ends_touch steady h₁ hold ⟨rfl, rfl, rfl, rfl, rfl, rfl, rfl⟩
  · exact h₁

/-! ## Other versions -/

/-- A migration only rebinds its item, where that may be. -/
theorem stays_migrate (steady : Steady limit I H) {id : String} {version : Option Int}
    (rebound : ∀ {c old new}, I c → c.items.get? old.id = some old → new.Rebinds old →
      new.createdAt = old.createdAt → new.version = old.version + 1 → I (c.save new)) :
    Stays (On I) (On H) (migrate id version) := by
  refine stays_underLock fun s hs => ?_
  simp only [ends_bind]
  refine (ends_loadItem steady hs id).mono ?_
  rintro item s₁ ⟨h₁, rfl, hold⟩
  simp only [ends_get]
  refine ends_ofExcept.2 ?_
  split
  · rename_i w hw
    simp only [ends_ofExcept]
    cases hrebound : w.rebind item s₁.clock with
    | error fault => exact h₁
    | ok new =>
      cases new with
      | none => exact h₁
      | some new =>
        have hcreated : new.createdAt = item.createdAt := by
          unfold Workflow.rebind at hrebound
          split at hrebound
          · cases hrebound
          · split at hrebound <;> cases hrebound
            rfl
        have hrebinds := rebinds_rebind hrebound
        have hwrite (s : System) (h : I s.core) (hs : s.items = s₁.items) :
            Ends (On I) (On H) (writeItem new item.version) s fun _ => On I := by
          refine (ends_writeItem h new (by rwa [System.Holds, hs]) hrebinds.id).mono ?_
          rintro stored t ⟨rfl, hstored, rfl⟩
          exact rebound h hstored
            ⟨hrebinds.id, hrebinds.team, hrebinds.status, hrebinds.history, hrebinds.signOffs⟩
            hcreated rfl
        simp only
        split
        · rename_i level _ _
          have hnote : Stays (On I) (On H) (note (.levelCleared item.id level w.version)) :=
            stays_note rfl
          exact hwrite _ (hnote s₁ h₁) rfl
        · exact hwrite s₁ h₁ rfl
  · exact h₁

end Run

end Stageflow
