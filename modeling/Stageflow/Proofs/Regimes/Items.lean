import Stageflow.Proofs.Regimes.Basic

/-!
# How regimes stand while items change

An item is written as it was loaded, so that a write keeps what the item is bound to, unless it
binds the item anew. A move that is written may be taken in.
-/

namespace Stageflow.Regime

open Run

variable {κ : Type} {R : Regime κ} {k k' : κ} {s₀ s : System}

/-- An item is stored, and a note made of it that the regime takes. -/
theorem After.put (h : R.After k s₀ s) (item : Item) (notice : Notice)
    (holds : R.holds k' { s with
      items := s.items.put item.id item, journal := notice :: s.journal }) :
    R.After k' s₀ { s with
      items := s.items.put item.id item, journal := notice :: s.journal } where
  stands := by
    refine ⟨holds, fun id current hcurrent => ?_, fun p hp =>
      List.mem_cons_of_mem _ (h.stands.armed p hp)⟩
    rw [Table.get?_put] at hcurrent
    split at hcurrent
    · rename_i hid
      rw [← Option.some.inj hcurrent, hid]
    · exact h.stands.keyed id current hcurrent
  follows := ⟨fun n hn => List.mem_cons_of_mem _ (h.follows.journal n hn), h.follows.rules⟩

variable (lawful : R.Lawful)
include lawful

/-- A write that leaves an item bound as it is. -/
theorem After.write (h : R.After k s₀ s) {old : Item} (new : Item)
    (stored : s.items.get? new.id = some old)
    (version : new.workflowVersion = old.workflowVersion) : R.After k s₀ (s.write new) :=
  h.put new _ (lawful.saved new h.stands.holds stored version)

theorem After.overtake (h : R.After k s₀ s) {id : String} {item : Item}
    (hitem : s.items.get? id = some item) : R.After k s₀ (overtake s id item) := by
  obtain rfl : item.id = id := h.stands.keyed id item hitem
  unfold Run.overtake
  split
  · have hwrite := h.write lawful { item with version := item.version + 1 } hitem rfl
    exact hwrite.beside lawful ⟨rfl, .same, rfl, rfl, rfl, rfl⟩ fun _ hp => hp
  · exact h

theorem After.locked (h : R.After k s₀ s) (held : List String) : R.After k s₀ { s with held } :=
  h.beside lawful ⟨rfl, .same, rfl, rfl, rfl, rfl⟩ fun _ hp => hp

theorem leads_loadItem (h : R.After k s₀ s) (id : String) :
    Leads (R.After k s₀) (loadItem id) s fun item t =>
      R.After k s₀ t ∧ item.id = id ∧ s.items.get? id = some item ∧ t.Holds item := by
  refine (leads_load_of_keyed h h.stands.keyed id).mono ?_
  rintro item t ⟨hid, hitem, hold, rfl⟩
  exact ⟨h.overtake lawful hitem, hid, hitem, hold⟩

theorem keeps_loadItem (id : String) : Keeps (R.After k s₀) (loadItem id) :=
  fun _ hs => (leads_loadItem lawful hs id).mono fun _ _ ht => ht.1

theorem keeps_underLock {α : Type} {id : String} {action : Run α}
    (h : Keeps (R.After k s₀) action) : Keeps (R.After k s₀) (underLock id action) :=
  fun _ hs => leads_underLock (I := R.After k s₀) (fun _ held ht => ht.locked lawful held) hs h
    fun _ _ held ht => ht.locked lawful held

omit lawful in
theorem keeps_workflowOf {item : Item} : Keeps (R.After k s₀) (workflowOf item) :=
  .bind .get fun _ => .ofExcept

/-- A loaded item is written with what it is bound to. -/
theorem leads_amend (h : R.After k s₀ s) {old : Item} (new : Item) (hold : s.Holds old)
    (id : new.id = old.id) (version : new.workflowVersion = old.workflowVersion) :
    Leads (R.After k s₀) (writeItem new old.version) s fun stored t =>
      stored = { new with version := old.version + 1 } ∧ t = s.write stored ∧
        R.After k s₀ t := by
  refine (leads_writeItem h new hold id).mono ?_
  rintro stored t ⟨rfl, hstored, rfl⟩
  refine ⟨rfl, rfl, h.write lawful { new with version := old.version + 1 } ?_ version⟩
  simpa only [id] using hstored

/-! ## Moves -/

theorem leads_commitMove (h : R.After k s₀ s) (id : String) (target : Json) {actor : Actor}
    (level : R.level k actor.depth) :
    Leads (R.After k s₀) (commitMove id target actor) s fun passage t =>
      R.After k s₀ t ∧ R.hears k (.moved passage.event) := by
  simp only [commitMove, leads_bind]
  refine (leads_loadItem lawful h id).mono ?_
  rintro item s₁ ⟨h₁, rfl, -, hold⟩
  refine (leads_workflowOf h₁ item).mono ?_
  rintro w _ ⟨rfl, -⟩
  simp only [leads_ofExcept]
  cases w.decide item target with
  | error fault => exact h₁
  | ok move =>
    simp only [leads_get]
    refine (leads_amend lawful h₁ (item.moveTo _ _ _) hold rfl rfl).mono ?_
    rintro stored t ⟨rfl, rfl, h₂⟩
    simp only [leads_note, leads_pure]
    obtain ⟨heard, holds⟩ := lawful.committed item (move.event item actor _) h₂.stands.holds level
      (Table.get?_put_self ..) rfl
    exact ⟨h₂.noted [_] holds, heard⟩

theorem keeps_moveItem {announce : Event → Run Unit} (ha : R.Announces announce) (id : String)
    (target : Json) {actor : Actor} (level : R.level k actor.depth) :
    Keeps (R.After k s₀) (moveItem announce id target actor) := by
  intro s hs
  simp only [moveItem, leads_bind]
  refine (leads_underLock (I := R.After k s₀) (fun _ held ht => ht.locked lawful held) hs
    (fun t ht => leads_commitMove lawful ht id target level)
    fun _ _ held ht => ⟨ht.1.locked lawful held, ht.2⟩).mono ?_
  rintro passage t ⟨ht, heard⟩
  exact (ha k s₀ _ heard t ht).mono fun _ _ h => h

/-! ## Creation, sign-offs and criteria -/

/-- A created item changes the setting. -/
theorem leads_createItem {announce : Event → Run Unit} (ha : R.Announces announce)
    (h : R.After k s₀ s) (idle : R.idle k) {request : NewItem}
    (level : R.level k request.actor.depth) :
    Leads (R.Rests s₀) (createItem announce request) s fun _ t => R.Rests s₀ t := by
  have hnow : R.Rests s₀ s := ⟨k, idle, h⟩
  simp only [createItem, leads_bind, leads_get, leads_ofExcept, Registry.activeFor]
  cases s.registry.active.get? request.team with
  | none => exact hnow
  | some w =>
    refine (leads_levelFor hnow).mono ?_
    rintro complexity t ⟨rfl, -⟩
    cases w.stageOf w.initialStatus with
    | error _ => exact hnow
    | ok stage =>
      refine leads_idFor.mono ?_
      rintro id _ ⟨nextId, rfl⟩
      have h₁ : R.After k s₀ { t with nextId } :=
        h.beside lawful ⟨rfl, .same, rfl, rfl, rfl, rfl⟩ fun _ hp => hp
      simp only [Items.create]
      by_cases hid : t.items.has id
      · have hrests : R.Rests s₀ { t with nextId } := ⟨k, idle, h₁⟩
        simpa [Workflow.newItem, hid] using hrests
      · have hfree : t.items.get? id = none := by simpa [Table.has] using hid
        simp only [Workflow.newItem, hid, leads_modify, leads_note, leads_pure]
        obtain ⟨k', idle', heard, holds⟩ := lawful.created
          { w.newItem id complexity request.attributes stage.id t.clock with version := 1 }
          ((t.view []).birth w request.team id stage request.actor) idle h₁.stands.holds level hfree
          rfl rfl
        have hrun := ha k' s₀ _ heard _ (h₁.put _ _ holds)
        exact (hrun.weaken fun _ ht => ⟨k', idle', ht⟩).mono fun _ _ ht => ⟨k', idle', ht⟩

theorem keeps_choicesOf {id : String} : Keeps (R.After k s₀) (choicesOf id) :=
  .bind (keeps_loadItem lawful id) fun _ => .bind keeps_workflowOf fun _ => .ofExcept

theorem keeps_gateOf {id : String} {stage : Option String} :
    Keeps (R.After k s₀) (gateOf id stage) := by
  refine .bind (keeps_loadItem lawful id) fun item => .bind keeps_workflowOf fun w => ?_
  split
  · exact .pure
  · exact .bind .ofExcept fun _ => .pure

theorem keeps_signOff {id stage role : String} {approver : Json} :
    Keeps (R.After k s₀) (signOff id stage role approver) := by
  refine keeps_underLock lawful fun s hs => ?_
  simp only [leads_bind]
  refine (leads_loadItem lawful hs id).mono ?_
  rintro item s₁ ⟨h₁, -, -, hold⟩
  refine (leads_workflowOf h₁ item).mono ?_
  rintro w _ ⟨rfl, -⟩
  simp only [leads_get, leads_ofExcept]
  cases hsigned : w.signOff item stage role approver _ with
  | error fault => exact h₁
  | ok signed =>
    cases signed with
    | none => exact h₁
    | some signed =>
      have amends := amends_signOff hsigned
      simp only [leads_bind, leads_pure]
      exact (leads_amend lawful h₁ signed hold amends.id amends.workflowVersion).mono
        fun _ _ ht => ht.2.2

theorem keeps_setCriterion {id criterion : String} {satisfied : Json} :
    Keeps (R.After k s₀) (setCriterion id criterion satisfied) := by
  refine keeps_underLock lawful fun s hs => ?_
  simp only [leads_bind]
  refine (leads_loadItem lawful hs id).mono ?_
  rintro item s₁ ⟨h₁, -, -, hold⟩
  simp only [leads_get, Item.setCriterion]
  split
  · rename_i changed hchanged
    obtain ⟨hid, hversion⟩ :
        changed.id = item.id ∧ changed.workflowVersion = item.workflowVersion := by
      split at hchanged <;> cases hchanged
      exact ⟨rfl, rfl⟩
    exact (leads_amend lawful h₁ changed hold hid hversion).mono fun _ _ ht => ht.2.2
  · exact h₁

/-! ## Versions -/

/-- An item that is bound anew changes the setting. -/
theorem leads_migrate (h : R.After k s₀ s) (idle : R.idle k) {id : String} {version : Option Int} :
    Leads (R.Rests s₀) (migrate id version) s fun _ t => R.Rests s₀ t := by
  have hlocked (t : System) (held : List String) (ht : R.Rests s₀ t) :
      R.Rests s₀ { t with held } :=
    ht.imp fun _ ht => ⟨ht.1, ht.2.locked lawful held⟩
  refine leads_underLock (I := R.Rests s₀) hlocked ⟨k, idle, h⟩ ?_
    fun _ t held ht => hlocked t held ht
  rintro t ⟨k, idle, h⟩
  -- Up to the write the setting stays the same.
  have hnow {u : System} (hu : R.After k s₀ u) : R.Rests s₀ u := ⟨k, idle, hu⟩
  simp only [leads_bind]
  refine ((leads_loadItem lawful h id).weaken fun _ => hnow).mono ?_
  rintro item s₁ ⟨h₁, -, -, hold⟩
  simp only [leads_get]
  refine (leads_ofExcept (I := R.Rests s₀)).2 ?_
  split
  · rename_i w _
    simp only [leads_ofExcept]
    cases hrebound : w.rebind item s₁.clock with
    | error fault => exact hnow h₁
    | ok rebound =>
      cases rebound with
      | none => exact hnow h₁
      | some rebound =>
        have hid := (rebinds_rebind hrebound).id
        have hwrite (u : System) (hu : R.After k s₀ u) (hitems : u.items = s₁.items) :
            Leads (R.Rests s₀) (writeItem rebound item.version) u fun _ t => R.Rests s₀ t := by
          refine (leads_writeItem (hnow hu) rebound (by rwa [System.Holds, hitems]) hid).mono ?_
          rintro stored v ⟨rfl, hstored, rfl⟩
          obtain ⟨k', idle', holds⟩ := lawful.rebound { rebound with version := item.version + 1 }
            idle hu.stands.holds (by simpa only [hid] using hstored)
          exact ⟨k', idle', hu.put _ _ holds⟩
        simp only
        split
        · exact hwrite _ (h₁.quiet lawful rfl) rfl
        · exact hwrite s₁ h₁ rfl
  · exact hnow h₁

end Stageflow.Regime
