import Stageflow.Proofs.Evolution.Session

/-!
# What steps make of items and versions

A step leaves a stored item as it is, or amends, rebinds, moves or creates it; and it leaves the
versions of workflows as they are, or adds a new one. Versions that were published stay.
-/

namespace Stageflow

variable {terms : Terms} {v v' : View}

/-! ## Items -/

/-- What a step makes of the item under an id. -/
inductive View.Makes (terms : Terms) (v : View) (id : String) : Option Item → Item → Prop
  | same (item : Item) : Makes terms v id (some item) item
  | amended {old new : Item} (amends : new.Amends old) : Makes terms v id (some old) new
  | rebound {w : Workflow} {old new : Item} (free : ¬ terms.kept old.id)
      (rebinds : new.Rebinds old) (offered : v.registry.Offers old.team w)
      (enters : new.Enters w) : Makes terms v id (some old) new
  | moved {w : Workflow} {old : Item} {target : Json} {move : Move}
      (bound : v.registry.version? old.team old.workflowVersion = some w)
      (decided : w.decide old target = .ok move) :
      Makes terms v id (some old) (v.movedItem old move)
  | created {w : Workflow} {team : String} {complexity : Option String} {attributes : Fields}
      {stage : Stage} (active : v.registry.active.get? team = some w)
      (placed : w.stageOf w.initialStatus = .ok stage) (graded : w.Grades complexity) :
      Makes terms v id none
        { w.newItem id complexity attributes stage.id v.clock with version := 1 }

theorem makes_of_put {item : Item} {id : String} (stored : Item)
    (h : (v.items.put stored.id stored).get? id = some item)
    (hstored : v.Makes terms stored.id (v.items.get? stored.id) stored) :
    v.Makes terms id (v.items.get? id) item := by
  rw [Table.get?_put] at h
  split at h
  · rename_i hid
    cases h
    exact hid ▸ hstored
  · rw [h]
    exact .same item

/-- What a step leads to is made of what was stored. -/
theorem Step.makes (h : Step terms v v') {id : String} {item : Item}
    (hitem : v'.items.get? id = some item) : v.Makes terms id (v.items.get? id) item := by
  have untouched (heq : v'.items = v.items) : v.Makes terms id (v.items.get? id) item := by
    rw [← heq, hitem]
    exact .same item
  cases h with
  | @amended old new stored amends =>
    refine makes_of_put new hitem ?_
    rw [amends.id, stored]
    exact .amended amends
  | @rebound w old new free stored rebinds offered enters =>
    refine makes_of_put new hitem ?_
    rw [rebinds.id, stored]
    exact .rebound free rebinds offered enters
  | @created w team id' complexity attributes stage actor active placed free graded =>
    have hcreate : (v.create w team id' complexity attributes stage actor).items =
        v.items.put id'
          { w.newItem id' complexity attributes stage.id v.clock with version := 1 } := by
      simp [View.create, View.log, View.store, Workflow.newItem]
    rw [hcreate] at hitem
    refine makes_of_put
      { w.newItem id' complexity attributes stage.id v.clock with version := 1 } hitem ?_
    simp only [Workflow.newItem, free]
    exact .created active placed graded
  | @committed w old target move actor stored bound decided =>
    have hcommit : (v.commit old move actor).items = v.items.put old.id (v.movedItem old move) := by
      simp [View.commit, View.log, View.store, View.movedItem, Item.moveTo]
    rw [hcommit] at hitem
    refine makes_of_put (v.movedItem old move) hitem ?_
    change v.Makes terms old.id (v.items.get? old.id) _
    rw [stored]
    exact .moved bound decided
  | heard | heeded | armed | collected | disarmed =>
    exact untouched
      (by simp [View.heed, View.arm, View.collect, View.disarm, View.log, View.logAll])
  | _ => exact untouched rfl

theorem Step.keyed (h : Step terms v v')
    (keyed : ∀ id item, v.items.get? id = some item → item.id = id) {id : String} {item : Item}
    (hitem : v'.items.get? id = some item) : item.id = id := by
  have hmakes := h.makes hitem
  generalize hold : v.items.get? id = old at hmakes
  cases hmakes with
  | same => exact keyed id _ hold
  | amended amends => exact amends.id.trans (keyed id _ hold)
  | rebound _ rebinds => exact rebinds.id.trans (keyed id _ hold)
  | @moved _ old => exact keyed id old hold
  | created => rfl

/-! ## Versions -/

/-- What publishing keeps true: the active workflow of a team is one of its versions, versions stand
under their own names, and the saved copies are those of the versions. -/
structure Registry.Coherent (registry : Registry) : Prop where
  active : ∀ team w, registry.active.get? team = some w →
    w.team = team ∧ registry.versions.get? (team, w.version) = some w
  saved : ∀ key, registry.saved.get? key = registry.versions.get? key

namespace Registry

variable {registry : Registry}

theorem coherent_empty : ({} : Registry).Coherent where
  active _ _ h := by cases h
  saved _ := rfl

theorem Coherent.version?_eq (h : registry.Coherent) (team : String) (version : Int) :
    registry.version? team version = registry.versions.get? (team, version) := by
  unfold version?
  rw [h.saved]
  cases registry.versions.get? (team, version) <;> rfl

theorem le_foldl_versions {team : String} (versions : Versions) (start : Int) :
    start ≤ versions.foldl (fun n p => if p.1.1 = team then max n p.1.2 else n) start ∧
      ∀ p ∈ versions, p.1.1 = team →
        p.1.2 ≤ versions.foldl (fun n p => if p.1.1 = team then max n p.1.2 else n) start := by
  induction versions generalizing start with
  | nil => simp
  | cons p rest ih =>
    obtain ⟨hstart, hrest⟩ := ih (if p.1.1 = team then max start p.1.2 else start)
    rw [List.foldl_cons]
    refine ⟨?_, fun q hq hteam => ?_⟩
    · refine Int.le_trans ?_ hstart
      split <;> omega
    · obtain rfl | hq := List.mem_cons.1 hq
      · rw [if_pos hteam] at hstart ⊢
        omega
      · exact hrest q hq hteam

/-- A team's next version is behind all its versions. -/
theorem lt_nextVersion {team : String} {version : Int} {w : Workflow}
    (h : registry.versions.get? (team, version) = some w) :
    version < registry.nextVersion team := by
  have hle : version ≤ registry.versions.foldl
      (fun n p => if p.1.1 = team then max n p.1.2 else n) 0 :=
    (le_foldl_versions registry.versions 0).2 _ (Table.mem_of_get? h) rfl
  unfold nextVersion
  omega

theorem Coherent.publish (h : registry.Coherent) (w : Workflow) :
    (registry.publish w).Coherent where
  active team found hfound := by
    simp only [Registry.publish, Table.get?_put] at hfound ⊢
    split at hfound
    · rename_i hteam
      cases hfound
      exact ⟨hteam.symm, by simp [hteam]⟩
    · rename_i hteam
      obtain ⟨hname, hversion⟩ := h.active team found hfound
      exact ⟨hname, by simp [hteam, hversion]⟩
  saved key := by
    simp only [Registry.publish, Table.get?_put, h.saved]

/-- A published version stays. -/
theorem get?_publish {w : Workflow} (next : w.version = registry.nextVersion w.team)
    {key : String × Int} {found : Workflow} (h : registry.versions.get? key = some found) :
    (registry.publish w).versions.get? key = some found := by
  have hne : key ≠ (w.team, w.version) := by
    rintro rfl
    have := lt_nextVersion h
    omega
  exact (Table.get?_put_of_ne hne ..).trans h

end Registry

/-- A step keeps the versions, or publishes the next one of a team, compiled from a document. -/
theorem Step.registry (h : Step terms v v') :
    v'.registry = v.registry ∨
      ∃ w, w.version = v.registry.nextVersion w.team ∧
        (∃ merged, MergedDocument.compile merged w.version = .ok w) ∧
        v'.registry = v.registry.publish w := by
  cases h with
  | @published w merged next compiled => exact .inr ⟨w, next, ⟨merged, compiled⟩, rfl⟩
  | _ =>
    exact .inl (by simp [View.store, View.create, View.commit, View.log, View.heed, View.arm,
      View.collect, View.disarm, View.logAll])

theorem Step.coherent (h : Step terms v v') (hv : v.registry.Coherent) : v'.registry.Coherent := by
  obtain heq | ⟨w, -, -, heq⟩ := h.registry
  · exact heq ▸ hv
  · exact heq ▸ hv.publish w

theorem Step.versions (h : Step terms v v') {key : String × Int} {w : Workflow}
    (hw : v.registry.versions.get? key = some w) : v'.registry.versions.get? key = some w := by
  obtain heq | ⟨_, next, -, heq⟩ := h.registry
  · exact heq ▸ hw
  · exact heq ▸ Registry.get?_publish next hw

theorem Step.version? (h : Step terms v v') (hv : v.registry.Coherent) {team : String}
    {version : Int} {w : Workflow} (hw : v.registry.version? team version = some w) :
    v'.registry.version? team version = some w := by
  rw [(h.coherent hv).version?_eq]
  rw [hv.version?_eq] at hw
  exact h.versions hw

/-- Versions stay coherent in every session. -/
theorem coherent_through {s : System} (sound : s.Sound) (coherent : s.registry.Coherent)
    (ops : List Operation) : (s.through ops).registry.Coherent :=
  invariant_loose (P := fun v => v.registry.Coherent) (fun _ _ hv hs => hs.coherent hv) sound
    coherent ops

/-- A published version is there after every session. -/
theorem version?_through {s : System} (sound : s.Sound) (coherent : s.registry.Coherent)
    (ops : List Operation) {team : String} {version : Int} {w : Workflow}
    (h : s.registry.version? team version = some w) :
    (s.through ops).registry.version? team version = some w := by
  have hend := invariant_loose
    (P := fun v => v.registry.Coherent ∧ v.registry.version? team version = some w)
    (fun _ _ hv hs => ⟨hs.coherent hv.1, hs.version? hv.1 hv.2⟩) sound ⟨coherent, h⟩ ops
  exact hend.2

/-! ## Items that stay with their version -/

/-- What operations keep true of an item and the workflow it is bound to. -/
structure Lasting (Good : Workflow → Item → Prop) : Prop where
  amended : ∀ {w old new}, Good w old → new.Amends old → Good w new
  created : ∀ {w stage} id complexity attributes now version,
    w.stageOf w.initialStatus = .ok stage →
      Good w { w.newItem id complexity attributes stage.id now with version }
  moved : ∀ {w old target move} now version, w.decide old target = .ok move → Good w old →
    Good w { old.moveTo move.route.target move.target.id now with version }

/-- Items stand under their ids, versions are coherent, and every item that is kept at its version
is good by it. -/
structure View.Sustains (kept : String → Prop) (Good : Workflow → Item → Prop) (v : View) :
    Prop where
  coherent : v.registry.Coherent
  keyed : ∀ id item, v.items.get? id = some item → item.id = id
  good : ∀ id item, kept id → v.items.get? id = some item →
    ∃ w, v.registry.version? item.team item.workflowVersion = some w ∧ Good w item

theorem View.Sustains.step {Good : Workflow → Item → Prop} (lasting : Lasting Good)
    (hv : v.Sustains terms.kept Good) (hs : Step terms v v') : v'.Sustains terms.kept Good := by
  have hcoherent := hs.coherent hv.coherent
  refine ⟨hcoherent, fun id item hitem => hs.keyed hv.keyed hitem, fun id item hid hitem => ?_⟩
  · have hmakes := hs.makes hitem
    have hversions {team : String} {version : Int} {w : Workflow}
        (h : v.registry.version? team version = some w) :
        v'.registry.version? team version = some w := hs.version? hv.coherent h
    generalize hold : v.items.get? id = old at hmakes
    cases hmakes with
    | same =>
      obtain ⟨w, hw, hgood⟩ := hv.good id _ hid hold
      exact ⟨w, hversions hw, hgood⟩
    | amended amends =>
      obtain ⟨w, hw, hgood⟩ := hv.good id _ hid hold
      rw [amends.team, amends.workflowVersion]
      exact ⟨w, hversions hw, lasting.amended hgood amends⟩
    | rebound free => exact absurd (hv.keyed id _ hold ▸ hid) free
    | moved bound decided =>
      obtain ⟨w, hw, hgood⟩ := hv.good id _ hid hold
      obtain rfl := Option.some.inj (bound.symm.trans hw)
      exact ⟨_, hversions hw, lasting.moved _ _ decided hgood⟩
    | @created w team complexity attributes stage active placed =>
      obtain ⟨rfl, hw⟩ := hv.coherent.active _ _ active
      rw [← hv.coherent.version?_eq] at hw
      exact ⟨w, hversions hw, lasting.created _ _ _ _ _ placed⟩

/-- In every session, an item that is never bound to another version is good by the workflow it is
bound to. -/
theorem Lasting.through {Good : Workflow → Item → Prop} (lasting : Lasting Good) {s : System}
    (new : s.New) (coherent : s.registry.Coherent) {ops : List Operation} {id : String}
    (kept : ∀ op ∈ ops, op.migrated? ≠ some id) {item : Item}
    (stored : (s.through ops).items.get? id = some item) :
    ∃ w, (s.through ops).registry.version? item.team item.workflowVersion = some w ∧
      Good w item := by
  have hstart : (s.view []).Sustains (· = id) Good :=
    ⟨coherent, new.sound.items, fun _ _ _ h => by simp [System.view, new.items] at h⟩
  have hadmitted : ∀ op ∈ ops, op.Admitted ⟨False, (· = id)⟩ := by
    refine fun op hop => ⟨False.elim, ?_⟩
    rintro _ hmigrated rfl
    exact kept op hop hmigrated
  have hend : ((s.through ops).view []).Sustains (· = id) Good :=
    invariant_through _ (fun _ _ hv hs => hv.step lasting hs) new.sound hstart hadmitted
  exact hend.good id item rfl stored

/-- Whether the last stay of an item is in the stage of its status. -/
def Workflow.Tracks (w : Workflow) (item : Item) : Prop :=
  ∃ earlier last stage, item.history = earlier ++ [last] ∧ w.stageOf item.status = .ok stage ∧
    last.stage = stage.id

theorem lasting_tracks : Lasting Workflow.Tracks where
  amended := by
    rintro w old new ⟨earlier, last, stage, hhistory, hstage, hlast⟩ amends
    exact ⟨earlier, last, stage, amends.history.trans hhistory, amends.status ▸ hstage, hlast⟩
  created := by
    intro w stage id complexity attributes now version placed
    exact ⟨[], _, stage, rfl, placed, rfl⟩
  moved := by
    intro w old target move now version decided _
    obtain ⟨-, -, hgoal, -⟩ := Workflow.decide_ok decided
    exact ⟨closeLast now old.history, _, move.target, rfl, hgoal, rfl⟩

end Stageflow
