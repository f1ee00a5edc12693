import Stageflow.Proofs.Compiled
import Stageflow.Proofs.ItemSteps

/-!
# Terminal stages absorb

A compiled workflow hands on, along every route, that a status lies in a terminal stage. The last
stay of a history is in the stage of the item's status, so a history that has entered a terminal
stage stays in terminal stages.
-/

namespace Stageflow

/-- Whether the stays after a terminal stage are in terminal stages too. -/
def Workflow.Absorbs (w : Workflow) (history : List Stay) : Prop :=
  history.Pairwise fun earlier later => w.isTerminal earlier.stage → w.isTerminal later.stage

/-- A decided move out of a terminal stage leads to one. -/
theorem decide_terminal {w : Workflow} (carries : w.edges.Carries w.Ends) {item : Item}
    {target : Json} {move : Move} (decided : w.decide item target = .ok move)
    (terminal : w.isTerminal move.source.id) : w.isTerminal move.target.id := by
  obtain ⟨hroute, hsource, hgoal, -⟩ := Workflow.decide_ok decided
  rw [Workflow.isTerminal_of_stageOf hsource] at terminal
  obtain ⟨stage, hstage, hterminal⟩ :=
    Workflow.route_carries carries hroute ⟨move.source, hsource, terminal⟩
  obtain rfl := Except.ok.inj (hgoal.symm.trans hstage)
  rw [Workflow.isTerminal_of_stageOf hgoal]
  exact hterminal

theorem lasting_absorbs :
    Lasting fun w item => w.Tracks item ∧ (w.edges.Carries w.Ends → w.Absorbs item.history) where
  amended := by
    rintro w old new ⟨htracks, habsorbs⟩ amends
    exact ⟨lasting_tracks.amended htracks amends, amends.history ▸ habsorbs⟩
  created := by
    intro w stage id complexity attributes now version placed
    exact ⟨lasting_tracks.created _ _ _ _ _ placed, fun _ => List.pairwise_singleton ..⟩
  moved := by
    rintro w old target move now version decided ⟨htracks, habsorbs⟩
    refine ⟨lasting_tracks.moved _ _ decided htracks, fun carries => ?_⟩
    obtain ⟨earlier, last, stage, hhistory, hstage, hlast⟩ := htracks
    obtain ⟨-, hsource, -, -⟩ := Workflow.decide_ok decided
    obtain rfl := Except.ok.inj (hsource.symm.trans hstage)
    obtain ⟨exitedAt, hended⟩ := ended_stay last now
    have hold := habsorbs carries
    rw [hhistory, Workflow.Absorbs, List.pairwise_append] at hold
    obtain ⟨hearlier, -, hcross⟩ := hold
    have hnext (h : w.isTerminal last.stage) : w.isTerminal move.target.id :=
      decide_terminal carries decided (hlast ▸ h)
    rw [Workflow.Absorbs, Item.moveTo, hhistory, closeLast_append, hended, List.append_assoc,
      List.pairwise_append]
    refine ⟨hearlier, by simpa using hnext, fun a ha b hb => ?_⟩
    have hlast := hcross a ha last (by simp)
    simp only [List.singleton_append, List.mem_cons, List.not_mem_nil, or_false] at hb
    obtain rfl | rfl := hb
    · exact hlast
    · exact fun h => hnext (hlast h)

/-- In every session, the history of an item that is never bound to another version stays in
terminal stages once it has entered one, if its workflow was compiled from a document. -/
theorem history_absorbs {document : MergedDocument} {version : Int} {w : Workflow}
    (compiled : document.compile version = .ok w) {s : System} (new : s.New)
    (coherent : s.registry.Coherent) {ops : List Operation} {id : String}
    (kept : ∀ op ∈ ops, op.migrated? ≠ some id) {item : Item}
    (stored : (s.through ops).items.get? id = some item)
    (bound : (s.through ops).registry.version? item.team item.workflowVersion = some w) :
    item.history.Pairwise fun earlier later =>
      w.isTerminal earlier.stage → w.isTerminal later.stage := by
  obtain ⟨w', hw', -, habsorbs⟩ := lasting_absorbs.through new coherent kept stored
  obtain rfl := Option.some.inj (bound.symm.trans hw')
  exact habsorbs (compile_carries compiled)

/-- The sample team's document, merged. -/
def sampleMerged : MergedDocument where
  team := "t"
  name := .str "t"
  description := .str ""
  version := .str "1"
  initialStatus := .null
  sections := sampleSections [] []
  lineage := ["t"]

/-- An item is created and moved to the end. -/
def finished : List Operation :=
  [.create { team := "t", id := some "i" }, .setCriterion "i" "tested" (.bool true),
    .move "i" (.str "B") {}, .move "i" (.str "Z") {}]

theorem history_absorbs_finished :
    ∃ w item, sampleMerged.compile 1 = .ok w ∧
      (System.through { registry := ({} : Registry).publish w } finished).items.get? "i" =
        some item ∧
      item.history.map (·.stage) = ["work", "work", "done"] ∧
      item.history.Pairwise fun earlier later =>
        w.isTerminal earlier.stage → w.isTerminal later.stage := by
  have hrun : (match sampleMerged.compile 1 with
      | .ok w =>
        decide (((System.through { registry := ({} : Registry).publish w } finished).items.get?
          "i").map (fun item => (item.team, item.workflowVersion, item.history.map (·.stage))) =
            some ("t", 1, ["work", "work", "done"]))
      | .error _ => false) = true := by decide +kernel
  cases hw : sampleMerged.compile 1 with
  | error fault => simp [hw] at hrun
  | ok w =>
    simp only [hw, decide_eq_true_eq] at hrun
    obtain ⟨item, hitem, hfacts⟩ := Option.map_eq_some_iff.1 hrun
    simp only [Prod.mk.injEq] at hfacts
    obtain ⟨hteam, hversion, hstages⟩ := hfacts
    obtain ⟨hname, hnumber⟩ := compile_names hw
    have hnew : ({ registry := ({} : Registry).publish w } : System).New :=
      ⟨rfl, rfl, rfl, fun _ _ h => by cases h⟩
    have hcoherent := Registry.coherent_empty.publish w
    have hpublished :
        (({} : Registry).publish w).version? item.team item.workflowVersion = some w := by
      rw [hcoherent.version?_eq, hteam, hversion, ← hnumber]
      have hname : w.team = "t" := hname
      rw [← hname]
      exact Table.get?_put_self ..
    refine ⟨w, item, rfl, hitem, hstages, ?_⟩
    exact history_absorbs hw hnew hcoherent (by decide) hitem
      (version?_through hnew.sound hcoherent finished hpublished)

end Stageflow
