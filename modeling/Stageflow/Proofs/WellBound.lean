import Stageflow.Proofs.ItemSteps
import Stageflow.Proofs.Refusals
import Stageflow.Proofs.WellFormed

/-!
# Items stay well bound

Nothing that an item refers to is ever missing: the version of the workflow that it is bound to is
there, and has a stage for its status and its level. A compiled workflow places all its statuses in
stages and moves items between its statuses only, versions are never dropped, and an item is bound
to another version only if that one has its status. So no look-up fails when the item is moved or
asked about.
-/

namespace Stageflow

open Run

variable {α β : Type} {w : Workflow} {item : Item}

/-! ## Connected workflows -/

/-- Whether all statuses of a workflow are placed in stages, and its moves lead to statuses. -/
structure Workflow.Connected (w : Workflow) : Prop where
  placed : ∀ status, (w.status? status).isSome → ∃ stage, w.stageOf status = .ok stage
  carries : w.edges.Carries fun status => (w.status? status).isSome

namespace Workflow

theorem mem_statuses_of_status? {status : String} {s : Status} (h : w.status? status = some s) :
    s ∈ w.statuses := List.mem_reverse.1 (List.mem_of_find?_eq_some h)

theorem status?_isSome {status : String} (h : status ∈ w.statuses.map (·.id)) :
    (w.status? status).isSome := by
  obtain ⟨s, hs, rfl⟩ := List.mem_map.1 h
  exact List.find?_isSome.2 ⟨s, List.mem_reverse.2 hs, by simp⟩

theorem stage?_isSome {stage : String} (h : stage ∈ w.stages.map (·.id)) :
    (w.stage? stage).isSome := by
  obtain ⟨s, hs, rfl⟩ := List.mem_map.1 h
  exact List.find?_isSome.2 ⟨s, hs, by simp⟩

end Workflow

theorem compile_connected {document : MergedDocument} {version : Int}
    (compiled : document.compile version = .ok w) : w.Connected := by
  obtain ⟨d, -, wellFormed, hstatuses, hedges, -, hstages, -⟩ := compile_wellFormed compiled
  refine ⟨fun status hstatus => ?_, fun source _ target htarget => ?_⟩
  · obtain ⟨s, hs⟩ := Option.isSome_iff_exists.1 hstatus
    have hplace : s.stage ∈ w.stages.map (·.id) :=
      hstages ▸ wellFormed.stageOfStatus s (hstatuses ▸ Workflow.mem_statuses_of_status? hs)
    obtain ⟨stage, hstage⟩ := Option.isSome_iff_exists.1 (Workflow.stage?_isSome hplace)
    exact ⟨stage, by simp [Workflow.stageOf, hs, hstage]⟩
  · rw [hedges] at htarget
    refine Workflow.status?_isSome ?_
    rw [hstatuses]
    exact (Edges.mem_destinations_ofTransitions.1 htarget).2.1

/-! ## Look-ups that do not fail -/

/-- Whether a fault says that something is not there which had to be: something that was looked up,
the stage of a status, a position, or a collaborator. -/
def Fault.isLookup (fault : Fault) : Bool :=
  fault.isMissing ||
    match fault with
    | .statusPlace _ | .unconfigured _ | .down _ => true
    | .template f => f.kind = .position
    | _ => false

/-- Whether a result is not that something is not there. -/
def Finds (x : Except Fault α) : Prop := ∀ fault, x = .error fault → fault.isLookup = false

theorem finds_ok {a : α} : Finds (.ok a) := fun _ h => nomatch h

theorem finds_error {fault : Fault} (h : fault.isLookup = false) :
    Finds (.error fault : Except Fault α) := by
  rintro _ ⟨⟩
  exact h

theorem Finds.bind {x : Except Fault α} {f : α → Except Fault β} (h : Finds x)
    (hf : ∀ a, x = .ok a → Finds (f a)) : Finds (x >>= f) := by
  cases x with
  | ok a => exact hf a rfl
  | error fault => exact finds_error (h fault rfl)

/-- What a predicate cannot be asked of is no matter of what is there. -/
theorem Predicate.finds_holds (p : Predicate) (attributes : Fields) :
    Finds ((p.holds attributes).mapError .defect) := by
  unfold Predicate.holds Predicate.lookup
  split
  · exact finds_ok
  · exact finds_error rfl

theorem Stage.finds_skippedBy (stage : Stage) (level : Option Level) (attributes : Fields) :
    Finds ((stage.skippedBy level attributes).mapError .defect) := by
  unfold Stage.skippedBy
  split
  · exact finds_ok
  · split
    · exact finds_ok
    · split
      · exact finds_ok
      · exact Predicate.finds_holds _ attributes

theorem Ahead.finds_look (level : Option Level) (attributes : Fields) (stages : List Stage) :
    Finds ((Ahead.look level attributes stages).mapError .defect) := by
  induction stages with
  | nil => exact finds_ok
  | cons stage rest ih =>
    unfold Ahead.look
    split
    · rw [mapError_bind]
      exact ih.bind fun _ _ => finds_ok
    · rw [mapError_bind]
      refine (stage.finds_skippedBy level attributes).bind fun skipped _ => ?_
      split
      · rw [mapError_bind]
        exact ih.bind fun _ _ => finds_ok
      · exact finds_ok

namespace Workflow

/-- The stage of a status has a place among the stages. -/
theorem stagesAfter_ok {status : String} {stage : Stage} (h : w.stageOf status = .ok stage) :
    ∃ behind, w.stagesAfter stage.id = .ok behind := by
  obtain ⟨s, -, hstage, -⟩ := stageOf_ok h
  have hplace : (w.stagePosition? stage.id).isSome := by
    rw [stagePosition?, List.findIdx?_isSome]
    exact List.any_eq_true.2 ⟨stage, List.mem_of_find?_eq_some hstage, by simp⟩
  obtain ⟨i, hi⟩ := Option.isSome_iff_exists.1 hplace
  exact ⟨w.stages.drop (i + 1), by simp [stagesAfter, hi]⟩

theorem finds_routeTo (item : Item) (status : String) : Finds (w.routeTo item status) := by
  unfold routeTo
  split
  · exact finds_error rfl
  · split
    · exact finds_ok
    · exact finds_error rfl

theorem finds_routeAhead {stage : Stage} (placed : w.stageOf item.status = .ok stage) :
    Finds (w.routeAhead item) := by
  obtain ⟨behind, hbehind⟩ := stagesAfter_ok placed
  simp only [routeAhead, placed, hbehind, Except.mapError.eq_2, ok_bind]
  refine (Ahead.finds_look _ _ behind).bind fun ahead _ => ?_
  split
  · exact finds_error rfl
  · split
    · exact finds_ok
    · exact finds_error rfl

theorem finds_checkLeave (item : Item) (stage : Stage) : Finds (w.checkLeave item stage) := by
  unfold checkLeave
  dsimp only
  split
  · exact finds_error rfl
  · split
    · exact finds_error rfl
    · exact finds_ok

/-- Whether an item is in a status of a workflow, and of one of its levels if of any. -/
structure Has (w : Workflow) (item : Item) : Prop where
  placed : ∃ stage, w.stageOf item.status = .ok stage
  graded : w.Grades item.complexity

theorem status?_isSome_of_stageOf {status : String} {stage : Stage}
    (h : w.stageOf status = .ok stage) : (w.status? status).isSome := by
  obtain ⟨s, hs, -⟩ := stageOf_ok h
  simp [hs]

/-- Whatever status is named, nothing is missing when a move of the item is decided. -/
theorem Connected.finds_decide (connected : w.Connected) (has : w.Has item) (target : String) :
    Finds (w.decide item (.str target)) := by
  obtain ⟨stage, hstage⟩ := has.placed
  unfold Workflow.decide
  refine Finds.bind (x := w.route item (.str target)) ?_ fun route hroute => ?_
  · unfold Workflow.route
    dsimp only
    split
    · exact finds_routeAhead hstage
    · exact finds_routeTo item target
  · obtain ⟨goal, hgoal⟩ := connected.placed _
      (route_carries connected.carries hroute (status?_isSome_of_stageOf hstage))
    simp only [hstage, hgoal, Except.mapError, ok_bind]
    split
    · exact finds_ok
    · exact (finds_checkLeave item stage).bind fun _ _ => finds_ok

/-- Every destination of an item is a choice. -/
theorem Connected.choices_ok (connected : w.Connected) (has : w.Has item) :
    ∃ choices, w.choices item = .ok choices := by
  obtain ⟨current, hcurrent⟩ := has.placed
  simp only [choices, hcurrent, Except.mapError, ok_bind]
  have heach : ∀ target ∈ w.destinations item.status,
      ∃ choice, w.choice item current target = .ok choice ∧ True := by
    intro target htarget
    obtain ⟨stage, hstage⟩ := connected.placed target
      (connected.carries _ (status?_isSome_of_stageOf hcurrent) target htarget)
    simp only [choice, hstage, Except.mapError, ok_bind]
    split <;> exact ⟨_, rfl, trivial⟩
  obtain ⟨choices, hchoices, -⟩ := mapM_eq_ok.2 heach
  exact ⟨choices, hchoices⟩

end Workflow

/-! ## Bound items -/

/-- Whether the version of the workflow that an item is bound to is there, and has what the item
refers to. -/
def Registry.Binds (registry : Registry) (item : Item) : Prop :=
  ∃ w, registry.version? item.team item.workflowVersion = some w ∧ w.Has item

/-- Whether every version of a workflow that a registry has was compiled for its team. -/
def Registry.Compiled (registry : Registry) : Prop :=
  ∀ team version w, registry.version? team version = some w →
    ∃ document : MergedDocument, document.team = team ∧ document.compile version = .ok w

/-- Whether versions are compiled and coherent, and every stored item stands under its id and is
bound to one of them. -/
structure View.Bound (v : View) : Prop where
  coherent : v.registry.Coherent
  compiled : v.registry.Compiled
  keyed : ∀ id item, v.items.get? id = some item → item.id = id
  items : ∀ id item, v.items.get? id = some item → v.registry.Binds item

namespace Registry

variable {registry : Registry}

theorem Compiled.names (h : registry.Compiled) {team : String} {version : Int}
    (hw : registry.version? team version = some w) : w.team = team ∧ w.version = version := by
  obtain ⟨document, rfl, hcompiled⟩ := h team version w hw
  exact compile_names hcompiled

theorem Compiled.connected (h : registry.Compiled) {team : String} {version : Int}
    (hw : registry.version? team version = some w) : w.Connected := by
  obtain ⟨document, -, hcompiled⟩ := h team version w hw
  exact compile_connected hcompiled

theorem Compiled.publish (h : registry.Compiled) (coherent : registry.Coherent)
    {merged : MergedDocument} (compiled : merged.compile w.version = .ok w) :
    (registry.publish w).Compiled := by
  intro team version found hfound
  rw [(coherent.publish w).version?_eq, Registry.publish, Table.get?_put] at hfound
  split at hfound
  · rename_i hkey
    cases hkey
    cases hfound
    exact ⟨merged, (compile_names compiled).1.symm, compiled⟩
  · rw [← coherent.version?_eq] at hfound
    exact h team version found hfound

/-- A version that a team is offered is one of its versions. -/
theorem Offers.version? {team : String} (h : registry.Offers team w) (compiled : registry.Compiled)
    (coherent : registry.Coherent) : registry.version? team w.version = some w := by
  obtain ⟨version, hw⟩ | hactive := h
  · obtain ⟨-, rfl⟩ := compiled.names hw
    exact hw
  · rw [coherent.version?_eq]
    exact (coherent.active team w hactive).2

end Registry

theorem View.Bound.step {terms : Terms} {v v' : View} (hv : v.Bound) (hs : Step terms v v') :
    v'.Bound := by
  have hcoherent := hs.coherent hv.coherent
  have hkept {team : String} {version : Int} {w : Workflow}
      (h : v.registry.version? team version = some w) :
      v'.registry.version? team version = some w := hs.version? hv.coherent h
  refine ⟨hcoherent, ?_, fun _ _ => hs.keyed hv.keyed, fun id item hitem => ?_⟩
  · obtain heq | ⟨w, -, ⟨merged, compiled⟩, heq⟩ := hs.registry
    · exact heq ▸ hv.compiled
    · exact heq ▸ hv.compiled.publish hv.coherent compiled
  · have hmakes := hs.makes hitem
    generalize hold : v.items.get? id = old at hmakes
    cases hmakes with
    | same =>
      obtain ⟨w, hw, has⟩ := hv.items id _ hold
      exact ⟨w, hkept hw, has⟩
    | amended amends =>
      obtain ⟨w, hw, has⟩ := hv.items id _ hold
      rw [Registry.Binds, amends.team, amends.workflowVersion]
      exact ⟨w, hkept hw, amends.status ▸ has.placed, amends.complexity ▸ has.graded⟩
    | @rebound w _ _ _ rebinds offered enters =>
      have hw := offered.version? hv.compiled hv.coherent
      rw [Registry.Binds, rebinds.team, enters.version]
      exact ⟨w, hkept hw, (hv.compiled.connected hw).placed _ enters.status, enters.level⟩
    | @moved w _ _ _ bound decided =>
      obtain ⟨w', hw, has⟩ := hv.items id _ hold
      obtain rfl := Option.some.inj (bound.symm.trans hw)
      obtain ⟨-, -, hgoal, -⟩ := Workflow.decide_ok decided
      exact ⟨w, hkept bound, ⟨_, hgoal⟩, has.graded⟩
    | @created w team _ _ _ active placed graded =>
      obtain ⟨rfl, hw⟩ := hv.coherent.active _ _ active
      rw [← hv.coherent.version?_eq] at hw
      exact ⟨w, hkept hw, ⟨_, placed⟩, graded⟩

/-- After every session, the versions are compiled and the items are bound to them. -/
theorem bound_through {s : System} (new : s.New) (coherent : s.registry.Coherent)
    (compiled : s.registry.Compiled) (ops : List Operation) :
    ((s.through ops).view []).Bound := by
  have hstart : (s.view []).Bound :=
    ⟨coherent, compiled, new.sound.items, fun _ _ h => by simp [System.view, new.items] at h⟩
  exact invariant_loose (fun _ _ hv hs => hv.step hs) new.sound hstart ops

/-! ## Requests about bound items -/

namespace Run

variable {s t : System} {id : String}

theorem registry_overtake : (overtake s id item).registry = s.registry := by
  unfold overtake
  split <;> rfl

/-- The version that a loaded item is bound to is there. -/
theorem version_overtake (bound : (s.view []).Bound) (stored : s.items.get? id = some item) :
    ∃ w, (overtake s id item).registry.version item.team item.workflowVersion = .ok w ∧
      w.Connected ∧ w.Has item := by
  obtain ⟨w, hw, has⟩ := bound.items id item stored
  have hfound : s.registry.version? item.team item.workflowVersion = some w := hw
  refine ⟨w, ?_, bound.compiled.connected hw, has⟩
  rw [registry_overtake, Registry.version, hfound]

/-- A loaded item is still stored, also if a rival has written it. -/
theorem has_overtake (stored : s.items.get? id = some item) :
    ∃ current, (overtake s id item).items.get? id = some current := by
  unfold overtake
  split
  · exact ⟨_, Table.get?_put_self ..⟩
  · exact ⟨item, stored⟩

/-- A write of an item that is stored fails only because another version is stored. -/
theorem writeItem_raises {current : Item} {expected : Int} {fault : Fault}
    (failed : writeItem item expected s = .error (.raised fault) t)
    (stored : s.items.get? item.id = some current) :
    fault = .overtaken item.id expected current.version := by
  rw [writeItem_apply, stored] at failed
  dsimp only at failed
  split at failed
  · cases failed
    rfl
  · cases failed

/-- What a loaded item's move fails for: its decision, or a rival that has written the item. -/
theorem commitMove_raises {target : Json} {actor : Actor} {fault : Fault}
    (keyed : item.id = id) (stored : s.items.get? id = some item)
    (version : s.registry.version item.team item.workflowVersion = .ok w)
    (failed : commitMove id target actor s = .error (.raised fault) t) :
    w.decide item target = .error fault ∨
      ∃ expected actual, fault = .overtaken id expected actual := by
  obtain rfl := keyed
  obtain ⟨current, hcurrent⟩ := has_overtake stored
  unfold commitMove at failed
  rw [bind_apply, loadItem_apply, stored] at failed
  dsimp only at failed
  rw [workflowOf_bind_apply, registry_overtake, version] at failed
  dsimp only at failed
  rw [ofExcept_bind_apply] at failed
  cases hdecide : w.decide item target with
  | error reason =>
    rw [hdecide] at failed
    cases failed
    exact .inl rfl
  | ok move =>
    rw [hdecide] at failed
    dsimp only at failed
    rw [get_bind_apply, bind_apply] at failed
    cases hwrite : writeItem (item.moveTo move.route.target move.target.id
        (overtake s item.id item).clock) item.version (overtake s item.id item) with
    | ok saved u =>
      rw [hwrite] at failed
      cases failed
    | error halt u =>
      rw [hwrite] at failed
      cases failed
      have hovertaken := writeItem_raises hwrite hcurrent
      exact .inr ⟨_, _, hovertaken⟩

/-- What a request to move a stored item fails for: the time to wait for its lock, the lock, the
decision, a rival that has written the item, or the time to wait for subscribers. -/
theorem moveItem_raises {target : Json} {actor : Actor} {fault : Fault}
    (keyed : item.id = id) (stored : s.items.get? id = some item)
    (version : s.registry.version item.team item.workflowVersion = .ok w)
    (failed : moveItem Run.publish id target actor s = .error (.raised fault) t) :
    s.settings.waitsTooLong ∧ fault = .waitTooLong ∨ fault = .busy id ∨
      w.decide item target = .error fault ∨
        (∃ expected actual, fault = .overtaken id expected actual) ∨
          s.settings.deliversTooLong ∧ fault = .budgetTooLong := by
  unfold moveItem at failed
  rw [bind_apply, underLock_apply] at failed
  by_cases hwait : s.settings.waitsTooLong
  · simp only [hwait, if_true] at failed
    cases failed
    exact .inl ⟨hwait, rfl⟩
  by_cases hheld : id ∈ s.held
  · simp only [hwait, hheld, Bool.false_eq_true, if_false, if_true] at failed
    cases failed
    exact .inr (.inl rfl)
  simp only [hwait, hheld, Bool.false_eq_true, if_false] at failed
  cases hcommit : commitMove id target actor { s with held := id :: s.held } with
  | error halt u =>
    rw [hcommit] at failed
    cases halt with
    | raised reason =>
      cases failed
      exact .inr (.inr ((commitMove_raises (s := { s with held := id :: s.held }) keyed stored
        version hcommit).imp_right .inl))
    | hung => cases failed
  | ok passage u =>
    -- what is left is the announcement, which fails late if it fails
    have hsettings : u.settings = s.settings := by
      have hspares := spares_commitMove id target actor { s with held := id :: s.held }
      unfold Spares Ends at hspares
      rw [hcommit] at hspares
      exact hspares
    rw [hcommit] at failed
    dsimp only at failed
    have hpublish := failsLate_publish (.moved passage.event) { u with held := u.held.erase id }
    rw [bind_apply] at failed
    unfold FailsBy at hpublish
    split at failed
    · cases failed
    · rename_i halt v hannounce
      rw [hannounce] at hpublish
      cases failed
      exact .inr (.inr (.inr (.inr ⟨hsettings ▸ hpublish.2, hpublish.1⟩)))

/-- A move of a stored item to a named status fails for no look-up. -/
theorem finds_moveItem (bound : (s.view []).Bound) (stored : s.items.get? id = some item)
    {target : String} {actor : Actor} {fault : Fault}
    (failed : moveItem Run.publish id (.str target) actor s = .error (.raised fault) t) :
    fault.isLookup = false := by
  obtain ⟨w, hversion, connected, has⟩ := version_overtake bound stored
  rw [registry_overtake] at hversion
  obtain ⟨-, rfl⟩ | rfl | hdecide | ⟨_, _, rfl⟩ | ⟨-, rfl⟩ :=
    moveItem_raises (bound.keyed id item stored) stored hversion failed
  · rfl
  · rfl
  · exact connected.finds_decide has target _ hdecide
  · rfl
  · rfl

theorem choicesOf_ok (bound : (s.view []).Bound) (stored : s.items.get? id = some item) :
    ∃ choices t, choicesOf id s = .ok choices t := by
  obtain ⟨w, hversion, connected, has⟩ := version_overtake bound stored
  obtain ⟨choices, hchoices⟩ := connected.choices_ok has
  refine ⟨choices, overtake s id item, ?_⟩
  unfold choicesOf
  rw [bind_apply, loadItem_apply, stored]
  dsimp only
  rw [workflowOf_bind_apply, hversion]
  dsimp only
  rw [ofExcept_apply, hchoices]

theorem gateOf_ok (bound : (s.view []).Bound) (stored : s.items.get? id = some item)
    (stage : Option String) : ∃ gate t, gateOf id stage s = .ok gate t := by
  obtain ⟨w, hversion, -, has⟩ := version_overtake bound stored
  obtain ⟨current, hcurrent⟩ := has.placed
  have hgate : ∃ gate, gateOf id stage s = .ok gate (overtake s id item) := by
    unfold gateOf
    rw [bind_apply, loadItem_apply, stored]
    dsimp only
    rw [workflowOf_bind_apply, hversion]
    dsimp only
    cases stage.filter fun stage => !stage.isEmpty with
    | some stage => exact ⟨_, rfl⟩
    | none =>
      rw [hcurrent]
      exact ⟨_, rfl⟩
  obtain ⟨gate, hgate⟩ := hgate
  exact ⟨gate, _, hgate⟩

end Run

/-- In every session of a system that starts with compiled versions or none, every stored item is
bound to a version of its team's workflow that can be looked up; its status has a stage there, and
its level, if it has one, is one of it. So a move of a stored item to a status or to the next stage
may be refused but fails for no look-up, and to ask for its choices or a gate never fails. -/
theorem items_well_bound {s : System} (new : s.New) (coherent : s.registry.Coherent)
    (compiled : s.registry.Compiled) (ops : List Operation) {id : String} {item : Item}
    (stored : (s.through ops).items.get? id = some item) :
    (∃ w stage,
      (s.through ops).registry.version item.team item.workflowVersion = .ok w ∧
        w.stageOf item.status = .ok stage ∧
          ∀ level ∈ item.complexity, (w.level? (some level)).isSome) ∧
      (∀ target actor fault t,
        Run.moveItem Run.publish id (.str target) actor (s.through ops) =
          .error (.raised fault) t → fault.isLookup = false) ∧
      (∃ choices t, Run.choicesOf id (s.through ops) = .ok choices t) ∧
      ∀ stage, ∃ gate t, Run.gateOf id stage (s.through ops) = .ok gate t := by
  have bound := bound_through new coherent compiled ops
  refine ⟨?_, fun target actor fault t => finds_moveItem bound stored, choicesOf_ok bound stored,
    gateOf_ok bound stored⟩
  obtain ⟨w, hw, ⟨stage, hstage⟩, graded⟩ := bound.items id item stored
  have hfound : (s.through ops).registry.version? item.team item.workflowVersion = some w := hw
  exact ⟨w, stage, by rw [Registry.version, hfound], hstage, graded⟩

theorem Registry.compiled_empty : ({} : Registry).Compiled := fun _ _ _ h => nomatch h

/-- An item with a level is bound to the second version of its workflow, and moved. -/
def migratedOnce : List Operation :=
  sampleSession [] ++
    [.create { team := "t", id := some "i", complexity := some "plain" }, .activate "t",
      .migrate "i" (some 2), .move "i" (.str "B") {}]

theorem items_well_bound_migratedOnce :
    ∃ item, (System.through {} migratedOnce).items.get? "i" = some item ∧
      (item.workflowVersion, item.status, item.complexity) = (2, "B", some "plain") ∧
      (∃ w stage, (System.through {} migratedOnce).registry.version item.team 2 = .ok w ∧
        w.stageOf "B" = .ok stage ∧ (w.level? (some "plain")).isSome) ∧
      ∃ choices t, Run.choicesOf "i" (System.through {} migratedOnce) = .ok choices t := by
  have hrun : ((System.through {} migratedOnce).items.get? "i").map (fun item =>
      (item.workflowVersion, item.status, item.complexity)) =
        some (2, "B", some "plain") := by decide +kernel
  obtain ⟨item, hitem, hfacts⟩ := Option.map_eq_some_iff.1 hrun
  obtain ⟨⟨w, stage, hw, hstage, hlevel⟩, -, hchoices, -⟩ :=
    items_well_bound (System.new_default {}) Registry.coherent_empty Registry.compiled_empty
      migratedOnce hitem
  simp only [Prod.mk.injEq] at hfacts
  obtain ⟨hversion, hstatus, hcomplexity⟩ := hfacts
  rw [hversion] at hw
  rw [hstatus] at hstage
  exact ⟨item, hitem, by rw [hversion, hstatus, hcomplexity],
    ⟨w, stage, hw, hstage, hlevel "plain" (by simp [hcomplexity])⟩, hchoices⟩

end Stageflow
