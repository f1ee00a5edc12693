import Stageflow.Proofs.Evolution.Session
import Stageflow.Proofs.Keeps
import Stageflow.Proofs.Requests
import Stageflow.Proofs.Tables

/-!
# No update is lost

Engines that share a store do not lose updates, in whatever order their turns come: a save replaces
the record that its request loaded, or nothing. A record that is loaded keeps its version, so the
stored record is the loaded one exactly as long as their versions agree; that is what the invariant
`Fleet.Sound` ties together. Saves count the versions up one by one, and each entry of a history was
planned from the one before it.
-/

namespace Stageflow

open Run

variable {fleet : Fleet} {scene : System} {flight : Flight} {items : Items}

/-! ## Histories that are planned entry by entry -/

/-- Whether a request planned the move from a stay, behind some earlier ones, to the next one: it
loaded the item in that stay, still open, and ended it. -/
structure Landing.Leads (landing : Landing) (earlier : List Stay) (stay next : Stay) : Prop where
  loaded : ∃ last, landing.flight.loaded.history = earlier ++ [last] ∧ last.exitedAt = none ∧
    stay = last.close landing.time ∧ landing.flight.loaded.status = stay.status
  decided : ∃ id target actor w move, landing.flight.request = .move id target actor ∧
    landing.registry.version landing.flight.loaded.team landing.flight.loaded.workflowVersion =
      .ok w ∧
    w.decide landing.flight.loaded target = .ok move ∧
    next.status = move.route.target ∧ next.stage = move.target.id ∧ next.enteredAt = landing.time

/-- Whether an accepted save of an item planned an entry of its history from the one before it. -/
def Fleet.Planned (fleet : Fleet) (id : String) (earlier : List Stay) (stay next : Stay) : Prop :=
  ∃ landing ∈ fleet.landings, landing.accepted ∧ landing.flight.request.item = id ∧
    landing.Leads earlier stay next

section Links

variable {P : List Stay → Stay → Stay → Prop} {earlier : List Stay} {last closed next : Stay}

/-- Whether what is in a history before a stay, that stay and the next one always fit. -/
def Linked (P : List Stay → Stay → Stay → Prop) (history : List Stay) : Prop :=
  ∀ earlier stay next later, history = earlier ++ stay :: next :: later → P earlier stay next

theorem linked_singleton (stay : Stay) : Linked P [stay] := by
  intro earlier first next later heq
  have hlength := congrArg List.length heq
  simp only [List.length_cons, List.length_nil, List.length_append] at hlength
  omega

theorem Linked.mono {Q : List Stay → Stay → Stay → Prop} {history : List Stay}
    (h : Linked P history) (hPQ : ∀ earlier stay next, P earlier stay next → Q earlier stay next) :
    Linked Q history :=
  fun earlier stay next later heq => hPQ _ _ _ (h earlier stay next later heq)

/-- A history whose last stay ends. -/
theorem Linked.close (h : Linked P (earlier ++ [last]))
    (closes : ∀ before stay, P before stay last → P before stay closed) :
    Linked P (earlier ++ [closed]) := by
  intro before stay following later heq
  obtain rfl | ⟨rest, end_, rfl⟩ := List.eq_nil_or_concat later
  · have hend : earlier ++ [closed] = (before ++ [stay]) ++ [following] := by simpa using heq
    obtain ⟨rfl, hlast⟩ := List.append_inj' hend rfl
    obtain rfl := List.singleton_inj.1 hlast
    exact closes before stay (h before stay last [] (by simp))
  · have hend : earlier ++ [closed] = (before ++ stay :: following :: rest) ++ [end_] := by
      simpa using heq
    obtain ⟨rfl, -⟩ := List.append_inj' hend rfl
    exact h before stay following (rest ++ [last]) (by simp)

/-- A history that goes on with a stay that fits. -/
theorem Linked.append (h : Linked P (earlier ++ [closed])) (fits : P earlier closed next) :
    Linked P (earlier ++ [closed, next]) := by
  intro before stay following later heq
  obtain rfl | ⟨rest, end_, rfl⟩ := List.eq_nil_or_concat later
  · obtain ⟨rfl, hpair⟩ := List.append_inj' heq rfl
    obtain ⟨rfl, rfl⟩ : closed = stay ∧ next = following := by simpa using hpair
    exact fits
  · have hend : (earlier ++ [closed]) ++ [next] =
        (before ++ stay :: following :: rest) ++ [end_] := by simpa using heq
    obtain ⟨hrest, -⟩ := List.append_inj' hend rfl
    exact h before stay following rest hrest

end Links

theorem Request.stands_plan {request : Request} {registry : Registry} {now : Instant}
    {loaded updated : Item} (h : request.plan registry now loaded = .ok (some updated))
    (stands : loaded.Stands) : updated.Stands := by
  obtain ⟨earlier, last, hhistory, hopen, hstatus⟩ := stands
  obtain ⟨-, ⟨hsame, hkept⟩ | ⟨id, target, actor, w, move, -, -, -, rfl⟩⟩ := Request.plan_ok h
  · exact ⟨earlier, last, hkept.trans hhistory, hopen, hstatus.trans hsame.symm⟩
  · have hmoved := Item.history_moveTo hhistory hopen
    exact ⟨earlier ++ [last.close now], _,
      by rw [hmoved, List.append_assoc, List.singleton_append], rfl, rfl⟩

/-- The history of an item goes on as its last accepted save planned. -/
theorem Fleet.planned_plan (landing : Landing) {updated stored : Item}
    (planned : landing.flight.request.plan landing.registry landing.time landing.flight.loaded =
      .ok (some updated))
    (stands : landing.flight.loaded.Stands) (landed : landing ∈ fleet.landings)
    (accepted : landing.answer = .ok (some stored))
    (linked : Linked (fleet.Planned landing.flight.request.item) landing.flight.loaded.history) :
    Linked (fleet.Planned landing.flight.request.item) updated.history := by
  obtain ⟨earlier, last, hhistory, hopen, hstatus⟩ := stands
  obtain ⟨-, ⟨-, hkept⟩ | ⟨id, target, actor, w, move, hrequest, hw, hmove, rfl⟩⟩ :=
    Request.plan_ok planned
  · rwa [hkept]
  · rw [Item.history_moveTo hhistory hopen]
    rw [hhistory] at linked
    refine (linked.close fun before stay hbefore => ?_).append ?_
    · obtain ⟨previous, hprevious, haccepted, hitem, hloaded, hdecided⟩ := hbefore
      exact ⟨previous, hprevious, haccepted, hitem, hloaded, hdecided⟩
    · exact ⟨landing, landed, by simp [Landing.accepted, accepted], rfl,
        ⟨last, hhistory, hopen, rfl, hstatus.symm⟩,
        ⟨id, target, actor, w, move, hrequest, hw, hmove, rfl, rfl, rfl⟩⟩

/-! ## What one save comes to -/

/-- Whether a loaded record is behind the stored one, or still is that one. -/
structure Flight.Fresh (flight : Flight) (items : Items) : Prop where
  named : flight.loaded.id = flight.request.item
  counted : 1 ≤ flight.loaded.version
  stored : ∃ current, items.get? flight.request.item = some current ∧
    (current = flight.loaded ∨ flight.loaded.version < current.version)

/-- What becomes of a save: its record is replaced, or the store stays as it is. -/
inductive Fleet.Lands (fleet : Fleet) (scene : System) (flight : Flight) :
    Except Halt (Option Item) → Items → Prop
  | saved {updated : Item}
      (planned : flight.request.plan scene.registry scene.clock flight.loaded = .ok (some updated))
      (current : fleet.items.get? flight.request.item = some flight.loaded) :
      Lands fleet scene flight (.ok (some { updated with version := flight.loaded.version + 1 }))
        (fleet.items.put flight.request.item
          { updated with version := flight.loaded.version + 1 })
  | overtaken {updated current : Item}
      (planned : flight.request.plan scene.registry scene.clock flight.loaded = .ok (some updated))
      (stored : fleet.items.get? flight.request.item = some current)
      (replaced : flight.loaded.version < current.version) :
      Lands fleet scene flight
        (.error (.raised
          (.overtaken flight.request.item flight.loaded.version current.version))) fleet.items
  | stayed
      (planned : flight.request.plan scene.registry scene.clock flight.loaded = .ok none) :
      Lands fleet scene flight (.ok none) fleet.items
  | refused {fault : Fault}
      (planned : flight.request.plan scene.registry scene.clock flight.loaded = .error fault) :
      Lands fleet scene flight (.error (.raised fault)) fleet.items

theorem Fleet.lands (fresh : flight.Fresh fleet.items) (scene : System) :
    ∃ answer items, fleet.Lands scene flight answer items ∧
      fleet.land scene flight = (⟨flight, scene.registry, scene.clock, answer⟩, items) := by
  unfold land Request.settle
  rw [get_bind_apply, ofExcept_bind_apply]
  simp only [engine]
  cases hplan : flight.request.plan scene.registry scene.clock flight.loaded with
  | error fault => exact ⟨_, _, .refused hplan, rfl⟩
  | ok planned =>
    cases planned with
    | none => exact ⟨_, _, .stayed hplan, rfl⟩
    | some updated =>
      obtain ⟨current, hcurrent, hstored⟩ := fresh.stored
      have hid : updated.id = flight.request.item :=
        (Request.plan_ok hplan).1.trans fresh.named
      simp only [bind_apply, writeItem_apply, hid, hcurrent]
      obtain rfl | hbehind := hstored
      · simp only [ne_eq, not_true_eq_false, if_false]
        exact ⟨_, _, .saved hplan hcurrent, by rw [← hid]; rfl⟩
      · rw [if_pos (by omega)]
        exact ⟨_, _, .overtaken hplan hcurrent hbehind, rfl⟩

/-! ## What turns keep true -/

/-- What the turns of engines keep true: an item's version counts the saves that were accepted, each
from a version of its own, and its history is planned entry by entry. -/
structure Fleet.Sound (fleet : Fleet) : Prop where
  keyed : ∀ id item, fleet.items.get? id = some item → item.id = id
  counted : ∀ id item, fleet.items.get? id = some item → item.version = 1 + fleet.saves id
  fresh : ∀ flight ∈ fleet.flights, flight.Fresh fleet.items
  past : ∀ landing ∈ fleet.landings, landing.accepted →
    ∃ item, fleet.items.get? landing.flight.request.item = some item ∧
      landing.flight.loaded.version < item.version
  successive : fleet.landings.Pairwise fun later earlier =>
    later.accepted → earlier.accepted → later.flight.request.item = earlier.flight.request.item →
      earlier.flight.loaded.version < later.flight.loaded.version
  complete : ∀ id item version, fleet.items.get? id = some item → 1 ≤ version →
    version < item.version → ∃ landing ∈ fleet.landings, landing.accepted ∧
      landing.flight.request.item = id ∧ landing.flight.loaded.version = version
  stands : ∀ id item, fleet.items.get? id = some item → item.Stands
  planned : ∀ id item, fleet.items.get? id = some item → Linked (fleet.Planned id) item.history

namespace Fleet

theorem sound_empty : ({} : Fleet).Sound := by
  constructor <;> simp [Table.get?]

theorem Planned.mono {fleet' : Fleet} {id : String} {earlier : List Stay} {stay next : Stay}
    (h : fleet.Planned id earlier stay next)
    (hlandings : ∀ landing ∈ fleet.landings, landing ∈ fleet'.landings) :
    fleet'.Planned id earlier stay next := by
  obtain ⟨landing, hlanding, hplans⟩ := h
  exact ⟨landing, hlandings landing hlanding, hplans⟩

/-- An item that was saved is stored. -/
theorem Sound.saves_eq_zero (sound : fleet.Sound) {id : String}
    (free : fleet.items.get? id = none) : fleet.saves id = 0 := by
  refine List.countP_eq_zero.2 fun landing hlanding haccepted => ?_
  simp only [Bool.and_eq_true, decide_eq_true_eq] at haccepted
  obtain ⟨item, hitem, -⟩ := sound.past landing hlanding haccepted.1
  rw [haccepted.2, free] at hitem
  cases hitem

/-- A request that has not landed is a fresh one. -/
theorem Sound.load (sound : fleet.Sound) (engine : Nat) (request : Request) {loaded : Item}
    (stored : fleet.items.get? request.item = some loaded) :
    ({ fleet with flights := fleet.flights ++ [⟨engine, request, loaded⟩] } : Fleet).Sound where
  keyed := sound.keyed
  counted := sound.counted
  fresh := by
    intro flight hflight
    obtain hflight | hflight := List.mem_append.1 hflight
    · exact sound.fresh flight hflight
    · obtain rfl := List.mem_singleton.1 hflight
      have hcounted := sound.counted _ _ stored
      exact ⟨sound.keyed _ _ stored, by simp only; omega, loaded, stored, .inl rfl⟩
  past := sound.past
  successive := sound.successive
  complete := sound.complete
  stands := sound.stands
  planned := sound.planned

/-- A landed request that saved nothing leaves everything as it is. -/
theorem Sound.miss (sound : fleet.Sound) {flights : List Flight}
    (hflights : ∀ flight ∈ flights, flight ∈ fleet.flights) {landing : Landing}
    (missed : landing.accepted = false) :
    ({ fleet with flights, landings := landing :: fleet.landings } : Fleet).Sound where
  keyed := sound.keyed
  counted := by simpa [saves, missed] using sound.counted
  fresh flight hflight := sound.fresh flight (hflights flight hflight)
  past := by simpa [missed] using sound.past
  successive := by simpa [missed] using sound.successive
  complete := by simpa [missed] using sound.complete
  stands := sound.stands
  planned id item hitem :=
    (sound.planned id item hitem).mono fun _ _ _ h =>
      h.mono fun _ hold => List.mem_cons_of_mem _ hold

/-- A new item has the first version, and no history but its first stay. -/
theorem Sound.create (sound : fleet.Sound) (item : Item) (free : fleet.items.get? item.id = none)
    (version : item.version = 1) {stage : String} {time : Instant}
    (history : item.history = [⟨item.status, stage, time, none⟩]) :
    ({ fleet with items := fleet.items.put item.id item } : Fleet).Sound := by
  have kept {id : String} {old : Item} (hold : fleet.items.get? id = some old) :
      (fleet.items.put item.id item).get? id = some old := by
    rw [Table.get?_put_of_ne (by rintro rfl; simp [free] at hold), hold]
  have hplanned : Linked (fleet.Planned item.id) item.history := history ▸ linked_singleton _
  refine
    { keyed := Table.forall_get?_put rfl fun id old _ => sound.keyed id old
      counted := Table.forall_get?_put ?_ fun id old _ => sound.counted id old
      fresh := fun flight hflight => ?_
      past := fun landing hlanding haccepted => ?_
      successive := sound.successive
      complete := ?_
      stands := Table.forall_get?_put ⟨[], _, history, rfl, rfl⟩
        fun id old _ => sound.stands id old
      planned := Table.forall_get?_put hplanned fun id old _ => sound.planned id old }
  · have hsaves := sound.saves_eq_zero free
    change item.version = 1 + fleet.saves item.id
    omega
  · obtain ⟨hnamed, hcounted, current, hcurrent, hstored⟩ := sound.fresh flight hflight
    exact ⟨hnamed, hcounted, current, kept hcurrent, hstored⟩
  · obtain ⟨old, hold, hbehind⟩ := sound.past landing hlanding haccepted
    exact ⟨old, kept hold, hbehind⟩
  · intro id old number hold hlow hhigh
    refine Table.forall_get?_put (P := fun id old => ∀ number : Int, 1 ≤ number →
      number < old.version → ∃ landing ∈ fleet.landings, landing.accepted ∧
        landing.flight.request.item = id ∧ landing.flight.loaded.version = number)
      (fun number hlow hhigh => ?_)
      (fun id old _ hold number => sound.complete id old number hold) id old hold number hlow hhigh
    omega

/-- An accepted save goes on from the loaded record, which is the stored one. -/
theorem Sound.save (sound : fleet.Sound) {flights : List Flight}
    (hflights : ∀ flight ∈ flights, flight ∈ fleet.flights) {updated : Item}
    (named : flight.loaded.id = flight.request.item)
    (planned : flight.request.plan scene.registry scene.clock flight.loaded = .ok (some updated))
    (current : fleet.items.get? flight.request.item = some flight.loaded) :
    let stored := { updated with version := flight.loaded.version + 1 }
    ({ items := fleet.items.put flight.request.item stored
       flights
       landings := ⟨flight, scene.registry, scene.clock, .ok (some stored)⟩ :: fleet.landings } :
      Fleet).Sound := by
  intro stored
  have hcounted := sound.counted _ _ current
  have advanced {id : String} {old : Item} (hold : fleet.items.get? id = some old) :
      ∃ new, (fleet.items.put flight.request.item stored).get? id = some new ∧
        (old = flight.loaded ∧ new = stored ∨ new = old) := by
    by_cases hid : id = flight.request.item
    · subst hid
      exact ⟨stored, Table.get?_put_self .., .inl ⟨Option.some.inj (hold.symm.trans current), rfl⟩⟩
    · exact ⟨old, by rw [Table.get?_put_of_ne hid, hold], .inr rfl⟩
  constructor
  case keyed =>
    exact Table.forall_get?_put ((Request.plan_ok planned).1.trans named)
      fun id old _ => sound.keyed id old
  case counted =>
    refine Table.forall_get?_put ?_ fun id old hid hold => ?_
    · simp only [saves, Landing.accepted, stored] at hcounted ⊢
      simp
      omega
    · have := sound.counted id old hold
      simpa [saves, Ne.symm hid] using this
  case fresh =>
    intro other hother
    obtain ⟨hnamed, hpositive, old, hold, hstored⟩ := sound.fresh other (hflights other hother)
    obtain ⟨new, hnew, ⟨rfl, rfl⟩ | rfl⟩ := advanced hold
    · refine ⟨hnamed, hpositive, stored, hnew, .inr ?_⟩
      obtain heq | hbehind := hstored
      · rw [← heq]
        exact Int.lt_succ _
      · exact Int.lt_trans hbehind (Int.lt_succ _)
    · exact ⟨hnamed, hpositive, new, hnew, hstored⟩
  case past =>
    intro landing hlanding haccepted
    obtain rfl | hlanding := List.mem_cons.1 hlanding
    · exact ⟨stored, Table.get?_put_self .., Int.lt_succ _⟩
    · obtain ⟨old, hold, hbehind⟩ := sound.past landing hlanding haccepted
      obtain ⟨new, hnew, ⟨rfl, rfl⟩ | rfl⟩ := advanced hold
      · exact ⟨stored, hnew, Int.lt_trans hbehind (Int.lt_succ _)⟩
      · exact ⟨new, hnew, hbehind⟩
  case successive =>
    refine List.pairwise_cons.2 ⟨fun earlier hearlier _ haccepted hsame => ?_, sound.successive⟩
    obtain ⟨old, hold, hbehind⟩ := sound.past earlier hearlier haccepted
    obtain rfl := Option.some.inj ((hsame ▸ hold).symm.trans current)
    exact hbehind
  case complete =>
    intro id item version hitem hlow hhigh
    by_cases hid : id = flight.request.item
    · subst hid
      rw [Table.get?_put_self] at hitem
      obtain rfl := Option.some.inj hitem
      obtain hlast | hbefore :
          version = flight.loaded.version ∨ version < flight.loaded.version := by
        simp only [stored] at hhigh
        omega
      · exact ⟨_, List.mem_cons_self, rfl, rfl, hlast.symm⟩
      · obtain ⟨landing, hlanding, h⟩ := sound.complete _ _ version current hlow hbefore
        exact ⟨landing, List.mem_cons_of_mem _ hlanding, h⟩
    · rw [Table.get?_put_of_ne hid] at hitem
      obtain ⟨landing, hlanding, h⟩ := sound.complete id item version hitem hlow hhigh
      exact ⟨landing, List.mem_cons_of_mem _ hlanding, h⟩
  case stands =>
    have hstands : updated.Stands := Request.stands_plan planned (sound.stands _ _ current)
    exact Table.forall_get?_put hstands fun id old _ => sound.stands id old
  case planned =>
    let landing : Landing := ⟨flight, scene.registry, scene.clock, .ok (some stored)⟩
    let after : Fleet :=
      { items := fleet.items.put flight.request.item stored, flights
        landings := landing :: fleet.landings }
    have kept {id : String} {old : Item} (hold : fleet.items.get? id = some old) :
        Linked (after.Planned id) old.history :=
      (sound.planned id old hold).mono fun _ _ _ h => h.mono fun _ => List.mem_cons_of_mem _
    have hnew : Linked (after.Planned flight.request.item) updated.history :=
      planned_plan landing planned (sound.stands _ _ current) List.mem_cons_self rfl (kept current)
    exact Table.forall_get?_put hnew fun id old _ => kept

/-- Creating an item adds it to the store, at its first version. -/
theorem sound_createItem (sound : fleet.Sound) (request : NewItem) {s : System}
    (items : s.items = fleet.items) :
    ({ fleet with
      items := ((createItem (fun _ => pure ()) request).after s).items } : Fleet).Sound := by
  refine Leads.after (I := fun t => ({ fleet with items := t.items } : Fleet).Sound) ?_
  have hs : ({ fleet with items := s.items } : Fleet).Sound := by rwa [items]
  simp only [createItem, leads_bind, leads_get, leads_ofExcept, Registry.activeFor]
  cases hw : s.registry.active.get? request.team with
  | none => exact hs
  | some w =>
    refine (leads_levelFor hs).mono ?_
    rintro complexity t ⟨rfl, -⟩
    cases hstage : w.stageOf w.initialStatus with
    | error _ => exact hs
    | ok stage =>
      refine leads_idFor.mono ?_
      rintro id _ ⟨nextId, rfl⟩
      simp only [Items.create, Workflow.newItem, items]
      by_cases hid : fleet.items.has id
      · simpa [hid] using sound
      · have hfree : fleet.items.get? id = none := by simpa [Table.has] using hid
        simp only [hid, Bool.false_eq_true, if_false, leads_modify, leads_note, leads_pure]
        exact sound.create
          { w.newItem id complexity request.attributes stage.id t.clock with version := 1 }
          hfree rfl rfl

/-- A turn keeps a fleet sound. -/
theorem Sound.turn (sound : fleet.Sound) (turn : Turn) : (fleet.turn turn).Sound := by
  cases turn with
  | create scene engine request => exact sound_createItem sound request rfl
  | load scene engine request =>
    simp only [Fleet.turn]
    split
    · rename_i loaded _ hload
      obtain ⟨_, hload, -⟩ := underLock_eq_ok hload
      rw [loadItem_apply] at hload
      split at hload
      · rename_i item hitem
        cases hload
        exact sound.load engine request hitem
      · cases hload
    · exact sound
  | save scene i =>
    simp only [Fleet.turn]
    split
    · exact sound
    · rename_i flight hflight
      have fresh := sound.fresh flight (List.mem_of_getElem? hflight)
      obtain ⟨answer, items, hlands, hland⟩ := lands fresh scene
      have hflights : ∀ other ∈ fleet.flights.eraseIdx i, other ∈ fleet.flights :=
        fun _ => List.mem_of_mem_eraseIdx
      simp only [hland]
      cases hlands with
      | saved planned current => exact sound.save hflights fresh.named planned current
      | overtaken | stayed | refused => exact sound.miss hflights rfl

theorem Sound.through (sound : fleet.Sound) (turns : List Turn) : (fleet.through turns).Sound := by
  induction turns generalizing fleet with
  | nil => exact sound
  | cons turn rest ih => exact ih (sound.turn turn)

/-- The stored record is the loaded one unless it has been replaced. -/
theorem Sound.current_iff (sound : fleet.Sound) (fresh : flight.Fresh fleet.items) :
    fleet.items.get? flight.request.item = some flight.loaded ↔ fleet.replaced flight = false := by
  obtain ⟨-, hpositive, current, hcurrent, hstored⟩ := fresh
  constructor
  · intro h
    obtain rfl := Option.some.inj (hcurrent.symm.trans h)
    refine List.any_eq_false.2 fun landing hlanding hreplaced => ?_
    simp only [Bool.and_eq_true, decide_eq_true_eq] at hreplaced
    obtain ⟨⟨haccepted, hitem⟩, hversion⟩ := hreplaced
    obtain ⟨item, hfound, hbehind⟩ := sound.past landing hlanding haccepted
    obtain rfl := Option.some.inj ((hitem ▸ hfound).symm.trans hcurrent)
    omega
  · intro h
    obtain rfl | hbehind := hstored
    · exact hcurrent
    · obtain ⟨landing, hlanding, haccepted, hitem, hversion⟩ :=
        sound.complete _ _ _ hcurrent hpositive hbehind
      have hreplaced := List.any_eq_false.1 h landing hlanding
      simp [haccepted, hitem, hversion] at hreplaced

end Fleet

/-- No update is lost, whatever turns engines take over one store. A save replaces exactly the
record that its request loaded and counts its version up by one, or leaves the store as it is; if
that record has been replaced, a planned write is a conflict. So an item's version counts the
accepted saves, no two of which go from the same version, and each entry of its history was planned
from the one before it. -/
theorem no_lost_update (turns : List Fleet.Turn) :
    let fleet := ({} : Fleet).through turns
    (∀ scene i flight, fleet.flights[i]? = some flight →
      let next := fleet.turn (.save scene i)
      ∃ answer, next.landings = ⟨flight, scene.registry, scene.clock, answer⟩ :: fleet.landings ∧
        (∀ stored, answer = .ok (some stored) →
          fleet.items.get? flight.request.item = some flight.loaded ∧
            stored.version = flight.loaded.version + 1 ∧
            next.items = fleet.items.put flight.request.item stored) ∧
        ((∀ stored, answer ≠ .ok (some stored)) → next.items = fleet.items) ∧
        ∀ updated,
          flight.request.plan scene.registry scene.clock flight.loaded = .ok (some updated) →
            if fleet.replaced flight then
              ∃ actual, answer = .error
                (.raised (.overtaken flight.request.item flight.loaded.version actual))
            else answer = .ok (some { updated with version := flight.loaded.version + 1 })) ∧
    (∀ id item, fleet.items.get? id = some item → item.version = 1 + fleet.saves id) ∧
    (fleet.landings.Pairwise fun later earlier => later.accepted → earlier.accepted →
      later.flight.request.item = earlier.flight.request.item →
        later.flight.loaded.version ≠ earlier.flight.loaded.version) ∧
    ∀ id item, fleet.items.get? id = some item → Linked (fleet.Planned id) item.history := by
  intro fleet
  have sound : fleet.Sound := Fleet.sound_empty.through turns
  refine ⟨fun scene i flight hflight => ?_, sound.counted, ?_, sound.planned⟩
  · have fresh := sound.fresh flight (List.mem_of_getElem? hflight)
    have hcurrent := sound.current_iff fresh
    obtain ⟨answer, items, hlands, hland⟩ := Fleet.lands fresh scene
    simp only [Fleet.turn, hflight, hland]
    refine ⟨answer, rfl, ?_⟩
    cases hlands with
    | saved planned current =>
      refine ⟨?_, fun hnone => absurd rfl (hnone _), fun updated hplan => ?_⟩
      · rintro stored hstored
        cases hstored
        exact ⟨current, rfl, rfl⟩
      · obtain rfl := Option.some.inj (Except.ok.inj (hplan.symm.trans planned))
        rw [if_neg (by simp [hcurrent.1 current])]
    | @overtaken _ stored planned hstored replaced =>
      refine ⟨by simp, fun _ => rfl, fun updated hplan => ?_⟩
      have hreplaced : fleet.replaced flight = true := by
        refine eq_true_of_ne_false fun h => ?_
        obtain rfl := Option.some.inj (hstored.symm.trans (hcurrent.2 h))
        omega
      rw [if_pos hreplaced]
      exact ⟨_, rfl⟩
    | stayed planned => exact ⟨by simp, fun _ => rfl, by simp [planned]⟩
    | refused planned => exact ⟨by simp, fun _ => rfl, by simp [planned]⟩
  · exact sound.successive.imp fun h hlater hearlier hsame => Int.ne_of_gt (h hlater hearlier hsame)

/-! ## Two engines that contend -/

/-- The sample team as every engine finds it. -/
def contendedScene : System := System.through {} (sampleSession [])

/-- Two engines load an item to move it, and the first one saves. -/
def contended : List Fleet.Turn :=
  [.create contendedScene 0 { team := "t", id := some "i" },
    .load contendedScene 0 (.move "i" (.str "B") {}),
    .load contendedScene 1 (.move "i" (.str "C") {}), .save contendedScene 0]

theorem no_lost_update_contended :
    let fleet := ({} : Fleet).through contended
    ((fleet.items.get? "i").map fun item => (item.status, item.version)) = some ("B", 2) ∧
      ∃ flight answer actual, fleet.flights[0]? = some flight ∧ fleet.replaced flight ∧
        (fleet.turn (.save contendedScene 0)).landings =
          ⟨flight, contendedScene.registry, contendedScene.clock, answer⟩ :: fleet.landings ∧
        answer = .error (.raised (.overtaken flight.request.item 1 actual)) ∧
        (fleet.turn (.save contendedScene 0)).items = fleet.items := by
  intro fleet
  have hmoved : ((fleet.items.get? "i").map fun item => (item.status, item.version)) =
      some ("B", 2) := by decide +kernel
  have hflight : ∃ flight, fleet.flights[0]? = some flight ∧ fleet.replaced flight ∧
      flight.loaded.version = 1 ∧
      (flight.request.plan contendedScene.registry contendedScene.clock
        flight.loaded).toOption.join.isSome := by decide +kernel
  obtain ⟨flight, hfirst, hreplaced, hversion, hplanned⟩ := hflight
  obtain ⟨hsaves, -⟩ := no_lost_update contended
  obtain ⟨answer, hlandings, -, hkept, hsettled⟩ := hsaves contendedScene 0 flight hfirst
  obtain ⟨updated, hupdated⟩ := Option.isSome_iff_exists.1 hplanned
  have hconflict := hsettled updated (toOption_eq_some.1 (Option.join_eq_some_iff.1 hupdated))
  rw [if_pos hreplaced, hversion] at hconflict
  obtain ⟨actual, rfl⟩ := hconflict
  exact ⟨hmoved, flight, _, actual, hfirst, hreplaced, hlandings, rfl, hkept (by simp)⟩

end Stageflow
