import Stageflow.Proofs.Evolution.Moves
import Stageflow.Proofs.Results
import Stageflow.Proofs.Tables
import Stageflow.Proofs.Twins.Basic

/-!
# Operations on items in step

Operations on items go by the workflows that items are bound to, so they do not tell systems in step
apart as long as bound versions are the same in both.
-/

namespace Stageflow

/-- Whether two systems find the same workflows for the versions that items may be bound to. -/
def Pact.Agrees (pact : Pact) (s₀ t₀ : System) : Prop :=
  ∀ id team version, pact.bound id team version →
    s₀.registry.version? team version = t₀.registry.version? team version

/-- Announcing moves of a depth, each bound to a version of the pact, goes in step. -/
def Pact.Echoes (pact : Pact) (s₀ t₀ : System) (depth : Int) (a b : Event → Run Unit) : Prop :=
  ∀ inside m, m.depth = depth → pact.Tells m →
    Run.Twins (pact.InStep s₀ t₀ inside) (inside = true) (a (.moved m)) (b (.moved m))

/-- Whether the versions that are found, and the active ones, are among those that items may be
bound to. -/
structure Pact.Rebinds (pact : Pact) (s₀ : System) : Prop where
  found : ∀ {id team version version' w}, pact.bound id team version →
    s₀.registry.version? team version' = some w → pact.bound id team w.version
  active : ∀ {id team version w}, pact.bound id team version →
    s₀.registry.active.get? team = some w → pact.bound id team w.version

/-- A stored item keeps to the pact if its version does. -/
theorem Pact.Holds.put {pact : Pact} {base u : System} {inside : Bool} {notices : List Notice}
    (hu : pact.Holds base inside u notices) {id : String} {item : Item} (hid : item.id = id)
    (takes : pact.Takes item) {rival : Option String} (alone : base.rival = none → rival = none) :
    pact.Holds base inside { u with items := u.items.put id item, rival }
      (.saved item :: notices) :=
  { hu with
    alone
    known := fun id hknown => Table.has_put (hu.known id hknown)
    items := Table.forall_get?_put ⟨hid, takes⟩ fun id other _ => hu.items id other
    notices := List.forall_mem_cons.2 ⟨trivial, hu.notices⟩ }

namespace Run

variable {α : Type} {H : Prop} {P : α → Prop} {pact : Pact} {s₀ t₀ : System} {inside : Bool}

/-! ## Loading and writing -/

theorem twin_loadItem (id : String) :
    Twin (pact.InStep s₀ t₀ inside) H (fun item => item.id = id ∧ pact.Takes item)
      (loadItem id) (loadItem id) := by
  rintro _ _ ⟨u, notices, rfl, rfl, hu⟩
  rw [loadItem_apply, loadItem_apply]
  simp only [System.behind]
  cases hitem : u.items.get? id with
  | none => exact .raised ⟨u, notices, rfl, rfl, hu⟩
  | some item =>
    obtain ⟨hid, htakes⟩ := hu.items id item hitem
    refine .ok ⟨hid, htakes⟩ ?_
    unfold overtake
    by_cases hrival : u.rival = some id
    · simp only [hrival, if_true]
      let stored := { item with version := item.version + 1 }
      have hsid : stored.id = id := hid
      have hstored : pact.Takes stored := htakes
      exact ⟨{ u with items := u.items.put id stored, rival := none }, .saved stored :: notices,
        rfl, rfl, hu.put hsid hstored fun _ => rfl⟩
    · simp only [hrival, if_false]
      exact ⟨u, notices, rfl, rfl, hu⟩

theorem twins_writeItem {item : Item} (takes : pact.Takes item) (expected : Int) :
    Twins (pact.InStep s₀ t₀ inside) H (writeItem item expected) (writeItem item expected) := by
  rintro _ _ ⟨u, notices, rfl, rfl, hu⟩
  rw [writeItem_apply, writeItem_apply]
  simp only [System.behind]
  cases hcurrent : u.items.get? item.id with
  | none => exact .raised ⟨u, notices, rfl, rfl, hu⟩
  | some current =>
    by_cases hversion : current.version = expected
    · simp only [hversion, ne_eq, not_true_eq_false, if_false]
      let stored := { item with version := expected + 1 }
      have hstored : pact.Takes stored := takes
      exact .ok trivial ⟨{ u with items := u.items.put item.id stored }, .saved stored :: notices,
        rfl, rfl, hu.put rfl hstored hu.alone⟩
    · simp only [hversion, ne_eq, not_false_eq_true, if_true]
      exact .raised ⟨u, notices, rfl, rfl, hu⟩

theorem twins_acquire (id : String) :
    Twins (pact.InStep s₀ t₀ inside) H (acquire id) (acquire id) := by
  rintro _ _ ⟨u, notices, rfl, rfl, hu⟩
  rw [acquire_apply, acquire_apply]
  have hstill : pact.InStep s₀ t₀ inside (u.behind s₀ notices) (u.behind t₀ notices) :=
    ⟨u, notices, rfl, rfl, hu⟩
  simp only [System.behind] at hstill ⊢
  by_cases hwait : u.settings.waitsTooLong
  · simp only [hwait, if_true]
    exact .raised hstill
  by_cases hheld : id ∈ u.held
  · simp only [hwait, hheld, if_true]
    exact .raised hstill
  simp only [hwait, hheld, if_false]
  exact .ok trivial ⟨{ u with held := id :: u.held }, notices, rfl, rfl, { hu with }⟩

theorem twin_underLock {id : String} {x y : Run α}
    (h : Twin (pact.InStep s₀ t₀ inside) H P x y) :
    Twin (pact.InStep s₀ t₀ inside) H P (underLock id x) (underLock id y) := by
  refine .bind (twins_acquire id) fun _ _ => .bind (.attempt h) fun result hresult =>
    .bind (twins_modify fun u notices hu => ?_) fun _ _ => .ofExcept hresult
  exact ⟨{ u with held := u.held.erase id }, rfl, rfl, { hu with }⟩

theorem twins_workflowOf (agrees : pact.Agrees s₀ t₀) {item : Item} (takes : pact.Takes item) :
    Twins (pact.InStep s₀ t₀ inside) H (workflowOf item) (workflowOf item) := by
  refine .read ?_
  rintro _ _ ⟨u, notices, rfl, rfl, -⟩
  simp only [System.behind, Registry.version, agrees _ _ _ takes]
  exact .ofExcept fun _ _ => trivial

/-! ## Moves -/

theorem twin_commitMove (agrees : pact.Agrees s₀ t₀) (id : String) (target : Json) (actor : Actor) :
    Twin (pact.InStep s₀ t₀ inside) H
      (fun passage => passage.event.depth = actor.depth ∧ pact.Tells passage.event)
      (commitMove id target actor) (commitMove id target actor) := by
  refine .bind (twin_loadItem id) ?_
  rintro item ⟨rfl, takes⟩
  refine .bind (twins_workflowOf agrees takes) fun w _ => .bind (.ofExcept fun _ _ => trivial)
    fun move _ => .read ?_
  rintro _ _ ⟨u, notices, rfl, rfl, -⟩
  have hmoved : pact.Takes (item.moveTo move.route.target move.target.id u.clock) := takes
  exact .bind (twins_writeItem hmoved _) fun stored _ =>
    .bind (twins_note trivial) fun _ _ => .pure ⟨rfl, takes⟩

theorem twins_moveItem (agrees : pact.Agrees s₀ t₀) {a b : Event → Run Unit} {actor : Actor}
    (echoes : pact.Echoes s₀ t₀ actor.depth a b) (id : String) (target : Json) :
    Twins (pact.InStep s₀ t₀ inside) (inside = true) (moveItem a id target actor)
      (moveItem b id target actor) :=
  .bind (twin_underLock (twin_commitMove agrees id target actor)) fun passage hpassage =>
    .bind (echoes inside passage.event hpassage.1 hpassage.2) fun _ _ => .pure trivial

theorem twins_choicesOf (agrees : pact.Agrees s₀ t₀) (id : String) :
    Twins (pact.InStep s₀ t₀ inside) H (choicesOf id) (choicesOf id) :=
  .bind (twin_loadItem id) fun _ hitem => .bind (twins_workflowOf agrees hitem.2) fun _ _ =>
    .ofExcept fun _ _ => trivial

/-! ## Sign-offs and criteria -/

theorem twins_gateOf (agrees : pact.Agrees s₀ t₀) (id : String) (stage : Option String) :
    Twins (pact.InStep s₀ t₀ inside) H (gateOf id stage) (gateOf id stage) := by
  refine .bind (twin_loadItem id) fun item hitem =>
    .bind (twins_workflowOf agrees hitem.2) fun w _ => ?_
  split
  · exact .pure trivial
  · exact .bind (.ofExcept fun _ _ => trivial) fun _ _ => .pure trivial

theorem twins_signOff (agrees : pact.Agrees s₀ t₀) (id stage role : String) (approver : Json) :
    Twins (pact.InStep s₀ t₀ inside) H (signOff id stage role approver)
      (signOff id stage role approver) := by
  refine twin_underLock <| .bind (twin_loadItem id) fun item hitem =>
    .bind (twins_workflowOf agrees hitem.2) fun w _ => .read ?_
  rintro _ _ ⟨u, notices, rfl, rfl, -⟩
  refine .bind (.ofExcept fun _ h => h) fun signed hsigned => ?_
  cases signed with
  | none => exact .pure trivial
  | some signed =>
    have amends := amends_signOff hsigned
    have htakes : pact.Takes signed := by
      rw [Pact.Takes, amends.id, amends.team, amends.workflowVersion]
      exact hitem.2
    exact .bind (twins_writeItem htakes _) fun _ _ => .pure trivial

theorem twins_setCriterion (id criterion : String) (satisfied : Json) :
    Twins (pact.InStep s₀ t₀ inside) H (setCriterion id criterion satisfied)
      (setCriterion id criterion satisfied) := by
  refine twin_underLock <| .bind (twin_loadItem id) fun item hitem => .read ?_
  rintro _ _ ⟨u, notices, rfl, rfl, -⟩
  simp only [System.behind]
  cases hchanged : item.setCriterion criterion satisfied u.clock with
  | none => exact .pure trivial
  | some changed =>
    have htakes : pact.Takes changed := by
      unfold Item.setCriterion at hchanged
      split at hchanged
      · cases hchanged
      · cases hchanged
        exact hitem.2
    exact twins_writeItem htakes _

/-! ## Other versions -/

theorem version_rebind {w : Workflow} {item rebound : Item} {now : Instant}
    (h : w.rebind item now = .ok (some rebound)) : rebound.workflowVersion = w.version := by
  unfold Workflow.rebind at h
  split at h
  · cases h
  · split at h
    · cases h
    · cases h
      rfl

/-- A migration goes by the active versions, so it is in step only where those are the same. -/
theorem twins_migrate (registry : t₀.registry = s₀.registry) (rebinds : pact.Rebinds s₀)
    (id : String) (version : Option Int) :
    Twins (pact.InStep s₀ t₀ inside) H (migrate id version) (migrate id version) := by
  refine twin_underLock <| .bind (twin_loadItem id) fun item hitem => .read ?_
  rintro _ _ ⟨u, notices, rfl, rfl, -⟩
  simp only [System.behind, registry]
  refine .bind (P := fun w => pact.bound item.id item.team w.version)
    (.ofExcept fun w hw => ?_) fun w hw => .read ?_
  · cases version with
    | some version => exact rebinds.found hitem.2 (version?_of_version hw)
    | none => exact rebinds.active hitem.2 (active_of_activeFor hw)
  rintro _ _ ⟨u, notices, rfl, rfl, -⟩
  refine .bind (.ofExcept fun _ h => h) fun rebound hrebound => ?_
  cases rebound with
  | none => exact .pure trivial
  | some rebound =>
    have htakes : pact.Takes rebound := by
      rw [Pact.Takes, (rebinds_rebind hrebound).id, (rebinds_rebind hrebound).team,
        version_rebind hrebound]
      exact hw
    simp only
    split
    · exact .bind (twins_note trivial) fun _ _ => twins_writeItem htakes _
    · exact twins_writeItem htakes _

theorem twins_newId : Twins (pact.InStep s₀ t₀ inside) H newId newId := by
  refine .get_bind ?_
  rintro _ _ ⟨u, notices, rfl, rfl, hu⟩
  exact .ok trivial ⟨{ u with nextId := u.nextId + 1 }, notices, rfl, rfl, { hu with }⟩

end Run

end Stageflow
