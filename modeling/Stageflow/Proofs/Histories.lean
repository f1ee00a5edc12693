import Stageflow.Proofs.ItemSteps

/-!
# Histories over time

What histories and traces say of where an item is: the last stay of a history is open and in the
item's status, earlier ones have ended, and the last move in the trace led to that status. A stay
that overlaps an interval of the past is still the same when the item moves on.
-/

namespace Stageflow

variable {terms : Terms} {v v' : View}

/-! ## Stays and intervals -/

/-- Whether a stay and an interval have more than one point of time in common. -/
def Stay.overlaps (stay : Stay) (start stop : Instant) : Bool :=
  decide (start.micros < stop.micros) && decide (stay.enteredAt.micros < stop.micros) &&
    stay.exitedAt.all fun exit =>
      decide (start.micros < exit.micros) && decide (stay.enteredAt.micros < exit.micros)

/-- Whether a history is in one status during an interval. -/
def Item.Held (item : Item) (status : String) (start stop : Instant) : Prop :=
  ∀ stay ∈ item.history, stay.overlaps start stop → stay.status = status

/-- Whether the last stay of an item is open and in its status, and the others ended before a time.
-/
def Item.Dated (item : Item) (clock : Instant) : Prop :=
  ∃ earlier last, item.history = earlier ++ [last] ∧ last.status = item.status ∧
    last.exitedAt = none ∧
      ∀ stay ∈ earlier, ∃ exit, stay.exitedAt = some exit ∧ exit.micros ≤ clock.micros

namespace Item

variable {item : Item} {status : String} {start stop clock : Instant}

/-- An empty interval has nothing in it. -/
theorem held_empty : item.Held status start start := by
  intro stay _ hoverlaps
  simp [Stay.overlaps] at hoverlaps

theorem overlaps_close {stay : Stay} (h : stay.exitedAt = none)
    (hoverlaps : (stay.close clock).overlaps start stop) : stay.overlaps start stop := by
  simp only [Stay.overlaps, Stay.close, Bool.and_eq_true] at hoverlaps
  have hstart := of_decide_eq_true hoverlaps.1.1
  have hentered : stay.enteredAt.micros < stop.micros := of_decide_eq_true hoverlaps.1.2
  simp [Stay.overlaps, h, hstart, hentered]

/-- A move leaves the past as it was. -/
theorem held_moveTo {target stage : String} (dated : item.Dated clock)
    (hstop : stop.micros ≤ clock.micros) (held : item.Held status start stop) :
    (item.moveTo target stage clock).Held status start stop := by
  obtain ⟨earlier, last, hhistory, -, hopen, -⟩ := dated
  intro stay hstay hoverlaps
  simp only [history_moveTo hhistory hopen, List.mem_append, List.mem_cons, List.not_mem_nil,
    or_false] at hstay
  obtain hstay | rfl | rfl := hstay
  · exact held stay (by simp [hhistory, hstay]) hoverlaps
  · exact held last (by simp [hhistory]) (overlaps_close hopen hoverlaps)
  · simp only [Stay.overlaps, Bool.and_eq_true, decide_eq_true_eq] at hoverlaps
    omega

theorem dated_moveTo (dated : item.Dated clock) (target stage : String) :
    (item.moveTo target stage clock).Dated clock := by
  obtain ⟨earlier, last, hhistory, -, hopen, hearlier⟩ := dated
  refine ⟨earlier ++ [last.close clock], ⟨target, stage, clock, none⟩, ?_, rfl, rfl, ?_⟩
  · simp [history_moveTo hhistory hopen]
  · intro stay hstay
    obtain hstay | hstay := List.mem_append.1 hstay
    · exact hearlier stay hstay
    · obtain rfl := List.mem_singleton.1 hstay
      exact ⟨clock, rfl, Int.le_refl _⟩

theorem Dated.later (dated : item.Dated clock) {later : Instant}
    (h : clock.micros ≤ later.micros) : item.Dated later := by
  obtain ⟨earlier, last, hhistory, hstatus, hopen, hearlier⟩ := dated
  refine ⟨earlier, last, hhistory, hstatus, hopen, fun stay hstay => ?_⟩
  obtain ⟨exit, hexit, hle⟩ := hearlier stay hstay
  exact ⟨exit, hexit, Int.le_trans hle h⟩

/-- While an item stays where it is, an interval up to now can be prolonged. -/
theorem Held.later (held : item.Held status start clock) (dated : item.Dated clock)
    (hstatus : item.status = status) {later : Instant} : item.Held status start later := by
  obtain ⟨earlier, last, hhistory, hlast, hopen, hearlier⟩ := dated
  intro stay hstay hoverlaps
  have hmem := hstay
  rw [hhistory] at hmem
  obtain hmem | hmem := List.mem_append.1 hmem
  · obtain ⟨exit, hexit, hle⟩ := hearlier stay hmem
    refine held stay hstay ?_
    simp only [Stay.overlaps, hexit, Option.all_some, Bool.and_eq_true, decide_eq_true_eq]
      at hoverlaps ⊢
    omega
  · obtain rfl := List.mem_singleton.1 hmem
    exact hlast.trans hstatus

end Item

/-! ## Moves in a trace -/

/-- The move that a notice tells of. -/
def Notice.moved? : Notice → Option Moved
  | .created m | .committed _ m => some m
  | _ => none

/-- The moves in a trace, newest first. -/
def moves (trace : List Notice) : List Moved := trace.filterMap Notice.moved?

/-- The status that the last move of an item led to. -/
def statusIn (trace : List Notice) (id : String) : Option String :=
  ((moves trace).find? (·.item = id)).map (·.target)

theorem moves_append (newer older : List Notice) :
    moves (newer ++ older) = moves newer ++ moves older := List.filterMap_append

theorem moves_echoes {echoes : List Notice} (h : ∀ notice ∈ echoes, notice.isEcho) :
    moves echoes = [] := by
  refine List.filterMap_eq_nil_iff.2 fun notice hnotice => ?_
  have := h notice hnotice
  cases notice <;> simp_all [Notice.isEcho, Notice.moved?]

theorem moves_told (v : View) (m : Moved) : moves (v.told m).trace = moves v.trace := by
  obtain ⟨echoes, htrace, hechoes⟩ := v.told_trace m
  rw [htrace, moves_append, moves_echoes hechoes, List.nil_append]

theorem moves_hear (v : View) (m : Moved) : moves (v.hear m).trace = moves v.trace := by
  obtain ⟨echoes, htrace, hechoes, -⟩ := v.hear_trace m
  rw [htrace, moves_append, moves_echoes hechoes, List.nil_append]

/-- A step moves one item and tells of it, or no item. -/
theorem Step.moves (h : Step terms v v') :
    (moves v'.trace = moves v.trace ∧
      ∀ id, (v'.items.get? id).map (·.status) = (v.items.get? id).map (·.status)) ∨
    ∃ m item, moves v'.trace = m :: moves v.trace ∧ v'.items = v.items.put m.item item ∧
      item.status = m.target := by
  have restored {old new : Item} (stored : v.items.get? old.id = some old) (hid : new.id = old.id)
      (hstatus : new.status = old.status) (id : String) :
      ((v.items.put new.id new).get? id).map (·.status) = (v.items.get? id).map (·.status) := by
    rw [Table.get?_put]
    split
    · rename_i heq
      simp [heq, hid, stored, hstatus]
    · rfl
  cases h with
  | amended stored amends => exact .inl ⟨rfl, restored stored amends.id amends.status⟩
  | rebound _ stored rebinds => exact .inl ⟨rfl, restored stored rebinds.id rebinds.status⟩
  | @created w team id complexity attributes stage actor active placed free =>
    refine .inr ⟨v.birth w team id stage actor,
      { w.newItem id complexity attributes stage.id v.clock with version := 1 }, ?_, ?_, rfl⟩
    · rw [View.create, moves_told]
      rfl
    · simp [View.create, View.log, View.store, View.birth, Workflow.newItem]
  | @committed w old target move actor stored bound decided =>
    refine .inr ⟨move.event old actor v.clock, v.movedItem old move, ?_, ?_, rfl⟩
    · rw [View.commit, moves_told]
      rfl
    · simp [View.commit, View.log, View.store, Move.event, View.movedItem, Item.moveTo]
  | heard => exact .inl ⟨moves_hear .., by simp⟩
  | disarmed item rule =>
    refine .inl ⟨?_, fun _ => rfl⟩
    rw [View.disarm, View.logAll, moves_append]
    simp [moves, Notice.moved?]
  | _ => exact .inl ⟨rfl, fun _ => rfl⟩

/-! ## Timely runs -/

/-- Items stand under their ids, their histories are dated by the clock, and the trace tells their
statuses. -/
structure View.Recorded (v : View) : Prop where
  keyed : ∀ id item, v.items.get? id = some item → item.id = id
  dated : ∀ id item, v.items.get? id = some item → item.Dated v.clock
  told : ∀ id, statusIn v.trace id = (v.items.get? id).map (·.status)

theorem Item.Dated.congr {old new : Item} {clock : Instant} (h : old.Dated clock)
    (history : new.history = old.history) (status : new.status = old.status) : new.Dated clock := by
  obtain ⟨earlier, last, hhistory, hlast, hrest⟩ := h
  exact ⟨earlier, last, history.trans hhistory, hlast.trans status.symm, hrest⟩

/-- The clock stands still in all steps but one, and never goes back in a timely run. -/
theorem Step.clock (h : Step terms v v') (timely : terms.timely) :
    v.clock.micros ≤ v'.clock.micros := by
  cases h with
  | elapsed later => exact later timely
  | _ =>
    simp [View.store, View.create, View.commit, View.log, View.heed, View.arm, View.collect,
      View.disarm, View.logAll]

theorem View.Recorded.step (hv : v.Recorded) (hs : Step terms v v') (timely : terms.timely) :
    v'.Recorded := by
  have hclock := hs.clock timely
  refine ⟨fun id item hitem => hs.keyed hv.keyed hitem, fun id item hitem => ?_, fun id => ?_⟩
  · have hmakes := hs.makes hitem
    generalize hold : v.items.get? id = old at hmakes
    cases hmakes with
    | same => exact (hv.dated id _ hold).later hclock
    | amended amends => exact ((hv.dated id _ hold).congr amends.history amends.status).later hclock
    | rebound _ rebinds =>
      exact ((hv.dated id _ hold).congr rebinds.history rebinds.status).later hclock
    | @moved _ old _ move =>
      have hmoved := Item.dated_moveTo (hv.dated id old hold) move.route.target move.target.id
      exact Item.Dated.later (hmoved.congr rfl rfl) hclock
    | created => exact Item.Dated.later ⟨[], _, rfl, rfl, rfl, by simp⟩ hclock
  · obtain ⟨hmoves, hstatus⟩ | ⟨m, item, hmoves, hitems, hstatus⟩ := hs.moves
    · rw [hstatus, ← hv.told]
      simp only [statusIn, hmoves]
    · have := hv.told id
      simp only [statusIn, hmoves, hitems, List.find?_cons, Table.get?_put] at this ⊢
      by_cases hid : m.item = id
      · simp [hid, hstatus]
      · simpa [hid, Ne.symm hid] using this

end Stageflow
