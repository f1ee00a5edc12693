import Mathlib.Data.List.Chain
import Stageflow.Proofs.ItemSteps

/-!
# Gates are safe

A stage is left only through its open gate, and a hard one only with its exit criteria met.
Sign-offs are never taken back and the level of an item stays, so a history shows which gates were
open.
-/

namespace Stageflow

variable {terms : Terms} {v v' : View}

/-- Whether every role that an item's level requires for a stage has signed off. -/
def Workflow.SignedOff (w : Workflow) (item : Item) (stage : String) : Prop :=
  ∀ level, w.level? item.complexity = some level →
    ∀ role ∈ level.rolesFor stage, (item.signOffs.of stage).has role

/-- Whether nothing stood against a move of an item between two stages. -/
def Workflow.Cleared (w : Workflow) (item : Item) (source goal : Stage) : Prop :=
  source.id ≠ goal.id →
    w.SignedOff item source.id ∧
      (source.enforcement = .hard → ∀ criterion ∈ source.exitCriteria, item.meets criterion)

theorem checkLeave_ok {w : Workflow} {item : Item} {stage : Stage}
    (h : w.checkLeave item stage = .ok ()) :
    w.SignedOff item stage.id ∧
      (stage.enforcement = .hard → ∀ criterion ∈ stage.exitCriteria, item.meets criterion) := by
  unfold Workflow.checkLeave at h
  dsimp only at h
  split at h
  · cases h
  · rename_i hopen
    split at h
    · cases h
    · rename_i hunmet
      refine ⟨fun level hlevel role hrole => ?_, fun hhard criterion hcriterion => ?_⟩
      · simp only [Gate.isOpen, Workflow.gate, Gate.check, hlevel, Option.map_some,
          Option.getD_some, Bool.not_eq_true', Bool.not_eq_false, List.isEmpty_iff,
          List.filter_eq_nil_iff] at hopen
        simpa using hopen role hrole
      · simp only [hhard, Item.unmet, Bool.and_eq_true, Bool.not_eq_true', decide_true, and_true,
          Bool.not_eq_false, List.isEmpty_iff, List.filter_eq_nil_iff] at hunmet
        simpa using hunmet criterion hcriterion

theorem decide_cleared {w : Workflow} {item : Item} {target : Json} {move : Move}
    (h : w.decide item target = .ok move) : w.Cleared item move.source move.target := by
  obtain ⟨-, -, -, hsame | hleave⟩ := Workflow.decide_ok h
  · exact fun hne => absurd hsame hne
  · exact fun _ => checkLeave_ok hleave

/-! ## Commits -/

/-- A step commits moves only as they were decided. -/
theorem Step.commits (h : Step terms v v') {item : Item} {m : Moved}
    (hm : .committed item m ∈ v'.trace) :
    .committed item m ∈ v.trace ∨
      ∃ w target move actor, v.registry.version? item.team item.workflowVersion = some w ∧
        w.decide item target = .ok move ∧ m = move.event item actor v.clock := by
  have hecho : (Notice.committed item m).isEcho = false := rfl
  cases h with
  | created =>
    rw [View.create, View.mem_trace_told hecho] at hm
    exact .inl (by simpa [View.log, View.store] using hm)
  | @committed w old target move actor stored bound decided =>
    rw [View.commit, View.mem_trace_told hecho] at hm
    obtain heq | hm := List.mem_cons.1 hm
    · cases heq
      exact .inr ⟨w, target, move, actor, bound, decided, rfl⟩
    · exact .inl hm
  | heard => exact .inl ((View.mem_trace_hear hecho).1 hm)
  | _ =>
    exact .inl (by simpa [View.heed, View.arm, View.collect, View.log, View.store, View.disarm,
      View.logAll] using hm)

/-- Every committed move of a trace was cleared by the workflow of its item. -/
structure View.Clears (v : View) : Prop where
  coherent : v.registry.Coherent
  cleared : ∀ item m, .committed item m ∈ v.trace → ∃ w source goal,
    v.registry.version? item.team item.workflowVersion = some w ∧
      w.stageOf item.status = .ok source ∧ w.stageOf m.target = .ok goal ∧
        w.Cleared item source goal

theorem View.Clears.step (hv : v.Clears) (hs : Step terms v v') : v'.Clears where
  coherent := hs.coherent hv.coherent
  cleared item m hm := by
    have hversions {w : Workflow}
        (h : v.registry.version? item.team item.workflowVersion = some w) :
        v'.registry.version? item.team item.workflowVersion = some w := hs.version? hv.coherent h
    obtain hm | ⟨w, target, move, actor, bound, decided, rfl⟩ := hs.commits hm
    · obtain ⟨w, source, goal, hw, hrest⟩ := hv.cleared item m hm
      exact ⟨w, source, goal, hversions hw, hrest⟩
    · obtain ⟨-, hsource, hgoal, -⟩ := Workflow.decide_ok decided
      exact ⟨w, move.source, move.target, hversions bound, hsource, hgoal, decide_cleared decided⟩

/-! ## Histories -/

/-- Whether every stay that is followed by one in another stage was left with all sign-offs. -/
def Workflow.Gated (w : Workflow) (item : Item) : Prop :=
  item.history.IsChain fun stay next => stay.stage ≠ next.stage → w.SignedOff item stay.stage

theorem gated_iff {w : Workflow} {item : Item} :
    w.Gated item ↔ (item.history.map (·.stage)).IsChain fun stage next =>
      stage ≠ next → w.SignedOff item stage := by
  rw [Workflow.Gated, List.isChain_map]

theorem signedOff_amends {w : Workflow} {old new : Item} {stage : String}
    (h : w.SignedOff old stage) (amends : new.Amends old) : w.SignedOff new stage := by
  intro level hlevel role hrole
  have hold := h level (amends.complexity ▸ hlevel) role hrole
  obtain ⟨approver, happrover⟩ := Option.isSome_iff_exists.1 hold
  simp [Table.has, amends.signOffs stage role approver happrover]

theorem lasting_gated : Lasting fun w item => w.Tracks item ∧ w.Gated item where
  amended := by
    rintro w old new ⟨htracks, hgated⟩ amends
    refine ⟨lasting_tracks.amended htracks amends, ?_⟩
    unfold Workflow.Gated at hgated ⊢
    rw [amends.history]
    exact hgated.imp fun _ _ h hne => signedOff_amends (h hne) amends
  created := by
    intro w stage id complexity attributes now version placed
    exact ⟨lasting_tracks.created _ _ _ _ _ placed, .singleton _⟩
  moved := by
    rintro w old target move now version decided ⟨htracks, hgated⟩
    refine ⟨lasting_tracks.moved _ _ decided htracks, ?_⟩
    obtain ⟨earlier, last, stage, hhistory, hstage, hlast⟩ := htracks
    obtain ⟨-, hsource, -, -⟩ := Workflow.decide_ok decided
    obtain rfl := Except.ok.inj (hsource.symm.trans hstage)
    have hleft : last.stage ≠ move.target.id → w.SignedOff old last.stage := by
      rw [hlast]
      exact fun hne => (decide_cleared decided hne).1
    rw [gated_iff] at hgated ⊢
    simp only [Item.moveTo, List.map_append, map_stage_closeLast]
    refine List.isChain_append.2 ⟨hgated, .singleton _, ?_⟩
    simpa [hhistory, Workflow.SignedOff] using hleft

/-! ## Sign-offs -/

/-- A recorded approver stays, whatever a step makes of its item. -/
theorem Step.approver (h : Step terms v v') {id stage role : String} {approver : Json} {item : Item}
    (stored : v.items.get? id = some item)
    (recorded : (item.signOffs.of stage).get? role = some approver) :
    ∃ item, v'.items.get? id = some item ∧ (item.signOffs.of stage).get? role = some approver := by
  obtain ⟨item', hitem'⟩ : ∃ item', v'.items.get? id = some item' :=
    Option.isSome_iff_exists.1 (h.has (by simp [Table.has, stored]))
  have hmakes := h.makes hitem'
  rw [stored] at hmakes
  refine ⟨item', hitem', ?_⟩
  cases hmakes with
  | same => exact recorded
  | amended amends => exact amends.signOffs stage role approver recorded
  | rebound _ rebinds => rw [rebinds.signOffs]; exact recorded
  | moved => exact recorded

theorem Steps.approver (h : Steps terms v v') {id stage role : String} {approver : Json}
    {item : Item}
    (stored : v.items.get? id = some item)
    (recorded : (item.signOffs.of stage).get? role = some approver) :
    ∃ item, v'.items.get? id = some item ∧ (item.signOffs.of stage).get? role = some approver :=
  h.invariant (P := fun v => ∃ item, v.items.get? id = some item ∧
    (item.signOffs.of stage).get? role = some approver)
    (fun _ _ ⟨_, stored, recorded⟩ hs => hs.approver stored recorded) ⟨item, stored, recorded⟩

/-! ## Sessions -/

/-- In every session, a move that was committed between two stages was cleared: every role that the
level requires had signed off, and a hard stage had its exit criteria met. So the history of an item
that is never bound to another version leaves no stage without its sign-offs; and no approver that
was recorded is ever replaced. -/
theorem gates_hold {s : System} (new : s.New) (coherent : s.registry.Coherent)
    (ops : List Operation) :
    (∀ item m, .committed item m ∈ (s.through ops).trace → ∃ w source goal,
      (s.through ops).registry.version? item.team item.workflowVersion = some w ∧
        w.stageOf item.status = .ok source ∧ w.stageOf m.target = .ok goal ∧
          (source.id ≠ goal.id →
            w.SignedOff item source.id ∧
              (source.enforcement = .hard →
                ∀ criterion ∈ source.exitCriteria, item.meets criterion))) ∧
    (∀ id item, (∀ op ∈ ops, op.migrated? ≠ some id) →
      (s.through ops).items.get? id = some item → ∃ w,
        (s.through ops).registry.version? item.team item.workflowVersion = some w ∧
          item.history.IsChain fun stay next =>
            stay.stage ≠ next.stage → w.SignedOff item stay.stage) ∧
    (∀ before later, ops = before ++ later → ∀ id item stage role approver,
      (s.through before).items.get? id = some item →
        (item.signOffs.of stage).get? role = some approver →
          ∃ item, (s.through ops).items.get? id = some item ∧
            (item.signOffs.of stage).get? role = some approver) := by
  refine ⟨?_, ?_, ?_⟩
  · have hstart : (s.view []).Clears :=
      ⟨coherent, fun _ _ h => by simp [System.view, new.trace] at h⟩
    have hend : ((s.through ops).view []).Clears :=
      invariant_loose (fun _ _ hv hs => hv.step hs) new.sound hstart ops
    exact hend.cleared
  · intro id item kept stored
    obtain ⟨w, hw, -, hgated⟩ := lasting_gated.through new coherent kept stored
    exact ⟨w, hw, hgated⟩
  · rintro before later rfl id item stage role approver stored recorded
    have hbefore := reaches_loose new.sound before
    have hlater := reaches_loose hbefore.sound later
    rw [System.through_append]
    exact hlater.steps.approver stored recorded

/-- An item with a level is approved and leaves its stage. -/
def approved : List Operation :=
  sampleSession [] ++
    [.create { team := "t", id := some "i", complexity := some "plain" },
      .signOff "i" "work" "lead" (.str "ann"), .setCriterion "i" "tested" (.bool true),
      .move "i" (.str "Z") {}]

theorem gates_hold_approved :
    ∃ item w, (System.through {} approved).items.get? "i" = some item ∧
      item.history.map (·.stage) = ["work", "done"] ∧
      (System.through {} approved).registry.version? item.team item.workflowVersion = some w ∧
      item.history.IsChain fun stay next =>
        stay.stage ≠ next.stage → w.SignedOff item stay.stage := by
  have hrun : ((System.through {} approved).items.get? "i").map
      (fun item => item.history.map (·.stage)) = some ["work", "done"] := by decide +kernel
  obtain ⟨item, hitem, hstages⟩ := Option.map_eq_some_iff.1 hrun
  obtain ⟨-, hgated, -⟩ :=
    gates_hold (System.new_default {}) Registry.coherent_empty approved
  obtain ⟨w, hw, hchain⟩ := hgated "i" item (by decide +kernel) hitem
  exact ⟨item, w, hitem, hstages, hw, hchain⟩

end Stageflow
