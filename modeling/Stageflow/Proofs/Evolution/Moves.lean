import Stageflow.Proofs.Applied
import Stageflow.Proofs.Evolution.Basic
import Stageflow.Proofs.Results

/-!
# How operations on items evolve a system

An item is written only as it was loaded, so each write is one step: a change that leaves the item
where it is, or a decided move that automation is told of next. `Pending` is what holds when a move
is written and not yet announced, and `Announces` what is asked of an announcement.
-/

namespace Stageflow

open Run

variable {terms : Terms} {s₀ : System}

/-- A move that is written and about to be announced: automation will be told of it first. -/
structure Pending (terms : Terms) (s₀ s : System) (m : Moved) : Prop where
  sound : s.Sound
  clock : s.clock = s₀.clock
  genuine : terms.timely → s.Genuine (.moved m)
  steps : ∀ taken, Steps terms (s₀.view taken) ((s.view taken).told m)

/-- A change out of view leaves a move pending. -/
theorem Pending.unseen {s t : System} {m : Moved} (h : Pending terms s₀ s m)
    (view : ∀ taken, t.view taken = s.view taken) (source : t.source = s.source) :
    Pending terms s₀ t m where
  sound :=
    { items := by
        have hitems : t.items = s.items := congrArg View.items (view [])
        simpa [hitems] using h.sound.items
      source := source ▸ h.sound.source }
  clock := (congrArg View.clock (view [])).trans h.clock
  genuine timely := by
    have hgenuine := h.genuine timely
    rwa [System.Genuine, view]
  steps taken := view taken ▸ h.steps taken

/-- Announcing pending moves of a depth lets a system evolve. -/
def Announces (terms : Terms) (s₀ : System) (depth : Int) (announce : Event → Run Unit) : Prop :=
  ∀ s m, m.depth = depth → Pending terms s₀ s m →
    Leads (Evolves terms s₀) (announce (.moved m)) s fun _ t => Evolves terms s₀ t

/-! ## Loading and writing -/

namespace System

/-- The system after an item is written. -/
def write (s : System) (item : Item) : System :=
  { s with items := s.items.put item.id item, journal := .saved item :: s.journal }

/-- A loaded item that is still the stored one, unless another version is stored. -/
def Holds (s : System) (item : Item) : Prop :=
  ∀ current, s.items.get? item.id = some current → current.version = item.version → current = item

theorem Sound.put {s t : System} (h : s.Sound) (item : Item)
    (items : t.items = s.items.put item.id item) (source : t.source = s.source) : t.Sound where
  items := by
    intro id current hcurrent
    rw [items, Table.get?_put] at hcurrent
    split at hcurrent
    · simp_all
    · exact h.items id current hcurrent
  source := source ▸ h.source

end System

namespace Run

variable {α : Type}

/-- A rival's write is a change of the version alone. -/
theorem evolves_overtake {s : System} (h : Evolves terms s₀ s) {id : String} {item : Item}
    (hitem : s.items.get? id = some item) : Evolves terms s₀ (overtake s id item) := by
  have hid : item.id = id := h.sound.items id item hitem
  subst hid
  unfold overtake
  split
  · have hstep (taken : List Taken) : Step terms (s.view taken)
        ((s.view taken).store { item with version := item.version + 1 }) :=
      .amended hitem ⟨rfl, rfl, rfl, rfl, rfl, rfl, fun _ _ _ h => h⟩
    exact h.step (h.sound.put { item with version := item.version + 1 } rfl rfl) rfl hstep
  · exact h

theorem holds_overtake {s : System} {item : Item} (hitem : s.items.get? item.id = some item) :
    (overtake s item.id item).Holds item := by
  intro current hcurrent hversion
  unfold overtake at hcurrent
  split at hcurrent
  · rw [Table.get?_put_self] at hcurrent
    have : current.version = item.version + 1 := by
      rw [← Option.some.inj hcurrent]
    omega
  · exact Option.some.inj (hcurrent.symm.trans hitem)

/-- What loading leads to, where items stand under their ids: the stored item, which stays the one
to be written. -/
theorem leads_load_of_keyed {I : System → Prop} {s : System} (h : I s)
    (keyed : ∀ id item, s.items.get? id = some item → item.id = id) (id : String) :
    Leads I (loadItem id) s fun item t =>
      item.id = id ∧ s.items.get? id = some item ∧ t.Holds item ∧ t = overtake s id item := by
  simp only [loadItem, leads_bind, leads_get, leads_ofExcept, Items.load]
  cases hitem : s.items.get? id with
  | none => exact h
  | some item =>
    have hid : item.id = id := keyed id item hitem
    subst hid
    exact ⟨rfl, rfl, holds_overtake hitem, rfl⟩

theorem leads_loadItem {s : System} (h : Evolves terms s₀ s) (id : String) :
    Leads (Evolves terms s₀) (loadItem id) s fun item t =>
      Evolves terms s₀ t ∧ item.id = id ∧ s.items.get? id = some item ∧ t.Holds item ∧
        t = overtake s id item := by
  refine (leads_load_of_keyed h h.sound.items id).mono ?_
  rintro item t ⟨hid, hitem, hold, rfl⟩
  exact ⟨evolves_overtake h hitem, hid, hitem, hold, rfl⟩

/-- A loaded item is stored, in the status it was loaded in. -/
theorem overtake_stored {s : System} {id : String} {item : Item}
    (hitem : s.items.get? id = some item) :
    ∃ current, (overtake s id item).items.get? id = some current ∧
      current.status = item.status := by
  unfold overtake
  split
  · exact ⟨{ item with version := item.version + 1 }, Table.get?_put_self .., rfl⟩
  · exact ⟨item, hitem, rfl⟩

theorem leads_attempt_loadItem {I : System → Prop} {s : System} {id : String}
    {Q : Except Fault Item → System → Prop} :
    Leads I (attempt (loadItem id)) s Q ↔
      match s.items.get? id with
      | some item => Q (.ok item) (overtake s id item)
      | none => Q (.error (.itemMissing id)) s := by
  rw [Leads, attempt_apply, loadItem_apply]
  cases s.items.get? id <;> rfl

theorem keeps_loadItem (id : String) : Keeps (Evolves terms s₀) (loadItem id) :=
  fun _ hs => (leads_loadItem hs id).mono fun _ _ ht => ht.1

/-- What writing leads to: the stored item is the loaded one, and is replaced. -/
theorem leads_writeItem {I : System → Prop} {s : System} (h : I s) {old : Item} (new : Item)
    (hold : s.Holds old) (hid : new.id = old.id) :
    Leads I (writeItem new old.version) s fun stored t =>
      stored = { new with version := old.version + 1 } ∧ s.items.get? old.id = some old ∧
        t = s.write stored := by
  simp only [writeItem, leads_bind, leads_get, Items.save, hid]
  cases hcurrent : s.items.get? old.id with
  | none => exact h
  | some current =>
    by_cases hversion : current.version = old.version
    · obtain rfl : current = old := hold current hcurrent hversion
      simp only [ne_eq, not_true_eq_false, if_false, leads_bind, leads_set, leads_note, leads_pure]
      simp [System.write]
    · simpa [hversion] using h

/-- Writing an amended item. -/
theorem leads_amend {s : System} (h : Evolves terms s₀ s) {old new : Item} (hold : s.Holds old)
    (amends : new.Amends old) :
    Leads (Evolves terms s₀) (writeItem new old.version) s fun _ t => Evolves terms s₀ t := by
  refine (leads_writeItem h new hold amends.id).mono ?_
  rintro stored t ⟨rfl, hstored, rfl⟩
  refine h.step (h.sound.put _ rfl rfl) rfl fun taken => ?_
  exact .amended hstored
    ⟨amends.id, amends.team, amends.workflowVersion, amends.status, amends.complexity,
      amends.history, amends.signOffs⟩

theorem evolves_locked {s : System} (h : Evolves terms s₀ s) (held : List String) :
    Evolves terms s₀ { s with held } := h.unseen (fun _ => rfl) rfl

/-- A computation under a lock leads to what it leads to by itself, where locks do not show. -/
theorem leads_underLock {I : System → Prop} {s : System} {id : String} {action : Run α}
    {Q : α → System → Prop} (silent : ∀ t held, I t → I { t with held }) (hs : I s)
    (h : ∀ t, I t → Leads I action t Q) (locked : ∀ a t held, Q a t → Q a { t with held }) :
    Leads I (underLock id action) s Q := by
  have hrun := h _ (silent s (id :: s.held) hs)
  unfold Leads at hrun ⊢
  rw [underLock_apply]
  by_cases hwait : s.settings.waitsTooLong
  · simpa only [hwait, if_true] using hs
  by_cases hheld : id ∈ s.held
  · simpa only [hwait, hheld, Bool.false_eq_true, if_false, if_true] using hs
  simp only [hwait, hheld, Bool.false_eq_true, if_false]
  cases haction : action { s with held := id :: s.held } with
  | ok a t =>
    rw [haction] at hrun
    exact locked a t _ hrun
  | error halt t =>
    rw [haction] at hrun
    cases halt with
    | raised fault => exact silent t _ hrun
    | hung => exact hrun

theorem keeps_underLock {id : String} {action : Run α} (h : Keeps (Evolves terms s₀) action) :
    Keeps (Evolves terms s₀) (underLock id action) :=
  fun _ hs => leads_underLock (I := Evolves terms s₀) (fun _ held ht => evolves_locked ht held)
    hs h fun _ _ held ht => evolves_locked ht held

theorem keeps_workflowOf {item : Item} : Keeps (Evolves terms s₀) (workflowOf item) :=
  .bind .get fun _ => .ofExcept

theorem leads_workflowOf {I : System → Prop} {s : System} (hs : I s) (item : Item) :
    Leads I (workflowOf item) s fun w t =>
      t = s ∧ s.registry.version? item.team item.workflowVersion = some w := by
  simp only [workflowOf, leads_bind, leads_get, leads_ofExcept, Registry.version]
  cases s.registry.version? item.team item.workflowVersion with
  | none => exact hs
  | some w => simp

/-! ## Moves -/

/-- A committed move is pending: it is told of the item as it was loaded. -/
theorem leads_commitMove {s : System} (h : Evolves terms s₀ s) (id : String) (target : Json)
    (actor : Actor) :
    Leads (Evolves terms s₀) (commitMove id target actor) s fun passage t =>
      passage.event.depth = actor.depth ∧ Pending terms s₀ t passage.event := by
  simp only [commitMove, leads_bind]
  refine (leads_loadItem h id).mono ?_
  rintro item _ ⟨h₁, rfl, -, hold, -⟩
  refine (leads_workflowOf h₁ item).mono ?_
  rintro w s₁ ⟨rfl, hw⟩
  simp only [leads_ofExcept]
  cases hmove : w.decide item target with
  | error fault => exact h₁
  | ok move =>
    simp only [leads_get]
    refine (leads_writeItem h₁ (item.moveTo ..) hold rfl).mono ?_
    rintro stored t ⟨rfl, hstored, rfl⟩
    simp only [leads_note, leads_pure]
    refine ⟨trivial, h₁.sound.put { item.moveTo _ _ _ with version := item.version + 1 } rfl rfl,
      h₁.clock, fun _ => ⟨rfl, ?_⟩, fun taken => ?_⟩
    · simp [System.view, System.write, Table.has, Item.moveTo]
    · have hcommit : Step terms (s₁.view taken) ((s₁.view taken).commit item move actor) :=
        .committed hstored hw hmove
      exact (h₁.steps taken).tail hcommit

theorem keeps_moveItem {announce : Event → Run Unit} {id : String} {target : Json} {actor : Actor}
    (ha : Announces terms s₀ actor.depth announce) :
    Keeps (Evolves terms s₀) (moveItem announce id target actor) := by
  intro s hs
  simp only [moveItem, leads_bind]
  refine (leads_underLock (I := Evolves terms s₀) (fun _ held ht => evolves_locked ht held)
    hs (fun t ht => leads_commitMove ht id target actor)
    fun _ _ _ ht => ⟨ht.1, ht.2.unseen (fun _ => rfl) rfl⟩).mono ?_
  rintro passage t ⟨hdepth, hpending⟩
  exact ha t passage.event hdepth hpending

/-! ## Versions that are looked up -/

theorem version?_of_version {registry : Registry} {team : String} {version : Int} {w : Workflow}
    (h : registry.version team version = .ok w) : registry.version? team version = some w := by
  unfold Registry.version at h
  split at h
  · cases h
    assumption
  · cases h

theorem active_of_activeFor {registry : Registry} {team : String} {w : Workflow}
    (h : registry.activeFor team = .ok w) : registry.active.get? team = some w := by
  unfold Registry.activeFor at h
  split at h
  · cases h
    assumption
  · cases h

/-! ## Creation -/

/-- A level that covers a weight is one of the workflow. -/
theorem grades_levelForWeight {w : Workflow} {weight : Json} {found : Option Level}
    (h : w.levelForWeight weight = .ok found) : w.Grades (found.map (·.id)) := by
  rintro _ hlevel
  obtain ⟨level, rfl, rfl⟩ := Option.map_eq_some_iff.1 hlevel
  simp only [Workflow.level?, Option.bind_some, List.find?_isSome]
  exact ⟨level, mem_of_findM? h, by simp⟩

theorem leads_levelFor {I : System → Prop} {s : System} (hs : I s) {w : Workflow}
    {request : NewItem} :
    Leads I (levelFor w request) s fun complexity t => t = s ∧ w.Grades complexity := by
  unfold levelFor
  split
  · rename_i level _ _
    split
    · exact hs
    · rename_i hlevel
      refine ⟨rfl, fun _ h => ?_⟩
      cases h
      simpa [Workflow.level?] using hlevel
  · exact ⟨rfl, fun _ h => nomatch h⟩
  · simp only [leads_bind, leads_ofReading, leads_pure]
    split
    · rename_i found hfound
      exact ⟨trivial, grades_levelForWeight hfound⟩
    · exact hs

theorem leads_idFor {I : System → Prop} {s : System} {given : Option String} :
    Leads I (idFor given) s fun _ t => ∃ nextId, t = { s with nextId } := by
  have hnew : Leads I newId s fun _ t => ∃ nextId, t = { s with nextId } := by
    simp only [newId, leads_bind, leads_get, leads_set, leads_pure]
    exact ⟨_, rfl⟩
  unfold idFor
  split
  · split
    · exact hnew
    · exact ⟨s.nextId, rfl⟩
  · exact hnew

theorem keeps_createItem {announce : Event → Run Unit} {request : NewItem}
    (ha : Announces terms s₀ request.actor.depth announce) :
    Keeps (Evolves terms s₀) (createItem announce request) := by
  intro s hs
  simp only [createItem, leads_bind, leads_get, leads_ofExcept, Registry.activeFor]
  cases hw : s.registry.active.get? request.team with
  | none => exact hs
  | some w =>
    refine (leads_levelFor hs).mono ?_
    rintro complexity t ⟨rfl, hgraded⟩
    cases hstage : w.stageOf w.initialStatus with
    | error _ => exact hs
    | ok stage =>
      refine leads_idFor.mono ?_
      rintro id s₁ ⟨nextId, rfl⟩
      have h₁ : Evolves terms s₀ { t with nextId } := hs.unseen (fun _ => rfl) rfl
      simp only [Items.create]
      by_cases hid : t.items.has id
      · simpa [Workflow.newItem, hid] using h₁
      · have hfree : t.items.get? id = none := by simpa [Table.has] using hid
        simp only [Workflow.newItem, hid, leads_modify, leads_note, leads_pure]
        refine ha _ _ rfl ⟨h₁.sound.put { w.newItem id _ _ _ _ with version := 1 } rfl rfl,
          h₁.clock, fun _ => ⟨rfl, ?_⟩, fun taken => ?_⟩
        · simp [System.view, Table.has]
        · have hcreate : Step terms (t.view taken) ((t.view taken).create w request.team id
              complexity request.attributes stage request.actor) :=
            .created hw hstage hfree hgraded
          exact (h₁.steps taken).tail hcreate

/-! ## Sign-offs, criteria and versions -/

theorem keeps_choicesOf {id : String} : Keeps (Evolves terms s₀) (choicesOf id) :=
  .bind (keeps_loadItem id) fun _ => .bind keeps_workflowOf fun _ => .ofExcept

theorem keeps_gateOf {id : String} {stage : Option String} :
    Keeps (Evolves terms s₀) (gateOf id stage) := by
  refine .bind (keeps_loadItem id) fun item => .bind keeps_workflowOf fun w => ?_
  split
  · exact .pure
  · exact .bind .ofExcept fun _ => .pure

/-- An approver that is recorded stays. -/
theorem get?_record {signOffs : SignOffs} {stage role stage' role' : String}
    {approver approver' : Json} (h : (signOffs.of stage').get? role' = some approver') :
    ((signOffs.record stage role approver).2.of stage').get? role' = some approver' := by
  by_cases hrole : (signOffs.of stage).has role
  · simpa only [SignOffs.record, hrole, if_true] using h
  · simp only [SignOffs.record, hrole, Bool.false_eq_true, if_false]
    by_cases hstage : stage' = stage
    · subst hstage
      have hne : role' ≠ role := by
        rintro rfl
        simp [Table.has, h] at hrole
      rw [SignOffs.of, Table.get?_put_self, Option.getD_some, Table.get?_put_of_ne hne]
      exact h
    · rw [SignOffs.of, Table.get?_put_of_ne hstage]
      exact h

theorem amends_signOff {w : Workflow} {item signed : Item} {stage role : String} {approver : Json}
    {now : Instant} (h : w.signOff item stage role approver now = .ok (some signed)) :
    signed.Amends item := by
  unfold Workflow.signOff at h
  split at h
  · cases h
  · split at h
    · rename_i signOffs hrecord
      cases h
      refine ⟨rfl, rfl, rfl, rfl, rfl, rfl, fun _ _ _ happrover => ?_⟩
      obtain rfl : (item.signOffs.record stage role approver).2 = signOffs := by rw [hrecord]
      exact get?_record happrover
    · cases h

theorem keeps_signOff {id stage role : String} {approver : Json} :
    Keeps (Evolves terms s₀) (signOff id stage role approver) := by
  refine keeps_underLock fun s hs => ?_
  simp only [leads_bind]
  refine (leads_loadItem hs id).mono ?_
  rintro item s₁ ⟨h₁, -, -, hold, -⟩
  refine (leads_workflowOf h₁ item).mono ?_
  rintro w _ ⟨rfl, -⟩
  simp only [leads_get, leads_ofExcept]
  cases hsigned : w.signOff item stage role approver _ with
  | error fault => exact h₁
  | ok signed =>
    cases signed with
    | none => exact h₁
    | some signed =>
      simp only [leads_bind, leads_pure]
      exact leads_amend h₁ hold (amends_signOff hsigned)

theorem keeps_setCriterion {id criterion : String} {satisfied : Json} :
    Keeps (Evolves terms s₀) (setCriterion id criterion satisfied) := by
  refine keeps_underLock fun s hs => ?_
  simp only [leads_bind]
  refine (leads_loadItem hs id).mono ?_
  rintro item s₁ ⟨h₁, -, -, hold, -⟩
  simp only [leads_get, Item.setCriterion]
  split
  · rename_i changed hchanged
    split at hchanged
    · cases hchanged
    · cases hchanged
      exact leads_amend h₁ hold ⟨rfl, rfl, rfl, rfl, rfl, rfl, fun _ _ _ h => h⟩
  · exact h₁

theorem rebinds_rebind {w : Workflow} {item rebound : Item} {now : Instant}
    (h : w.rebind item now = .ok (some rebound)) : rebound.Rebinds item := by
  unfold Workflow.rebind at h
  split at h
  · cases h
  · split at h
    · cases h
    · cases h
      exact ⟨rfl, rfl, rfl, rfl, rfl⟩

/-- An item is only bound to a workflow that has its status; a level that is not there is cleared.
-/
theorem enters_rebind {w : Workflow} {item rebound : Item} {now : Instant}
    (h : w.rebind item now = .ok (some rebound)) : rebound.Enters w := by
  unfold Workflow.rebind at h
  split at h
  · cases h
  · split at h
    · cases h
    · rename_i hstatus
      cases h
      refine ⟨rfl, by simpa [Option.isSome_iff_ne_none] using hstatus, fun level hlevel => ?_⟩
      obtain ⟨hcomplexity, hfound⟩ := Option.filter_eq_some_iff.1 hlevel
      exact hcomplexity ▸ hfound

theorem keeps_migrate {id : String} {version : Option Int} (free : ¬ terms.kept id) :
    Keeps (Evolves terms s₀) (migrate id version) := by
  refine keeps_underLock fun s hs => ?_
  simp only [leads_bind]
  refine (leads_loadItem hs id).mono ?_
  rintro item s₁ ⟨h₁, rfl, -, hold, -⟩
  simp only [leads_get]
  refine (leads_ofExcept (I := Evolves terms s₀)).2 ?_
  split
  · rename_i w hw
    have hoffered : s₁.registry.Offers item.team w := by
      cases version with
      | some version => exact .inl ⟨version, version?_of_version hw⟩
      | none => exact .inr (active_of_activeFor hw)
    simp only [leads_ofExcept]
    cases hrebound : w.rebind item s₁.clock with
    | error fault => exact h₁
    | ok rebound =>
      cases rebound with
      | none => exact h₁
      | some rebound =>
        have hrebinds := rebinds_rebind hrebound
        have henters := enters_rebind hrebound
        have hwrite (s : System) (h : Evolves terms s₀ s) (hs : s.items = s₁.items)
            (hregistry : s.registry = s₁.registry) :
            Leads (Evolves terms s₀) (writeItem rebound item.version) s fun _ t =>
              Evolves terms s₀ t := by
          have hoffered : s.registry.Offers item.team w := hregistry ▸ hoffered
          refine (leads_writeItem h rebound (by rwa [System.Holds, hs]) hrebinds.id).mono ?_
          rintro stored t ⟨rfl, hstored, rfl⟩
          refine h.step (h.sound.put { rebound with version := item.version + 1 } rfl rfl) rfl
            fun taken => ?_
          exact .rebound free hstored
            ⟨hrebinds.id, hrebinds.team, hrebinds.status, hrebinds.history, hrebinds.signOffs⟩
            hoffered ⟨henters.version, henters.status, henters.level⟩
        simp only
        split
        · exact hwrite _ (keeps_note rfl s₁ h₁) rfl rfl
        · exact hwrite s₁ h₁ rfl rfl
  · exact h₁

end Run

end Stageflow
