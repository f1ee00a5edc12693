import Stageflow.Proofs.NextStage
import Stageflow.Proofs.Workers

/-!
# Requests for the next stage

What a request to move a stored item to the next stage comes to. An accepted document leaves only
one thing unchecked that deciding such a request reads: what the predicate of a stage asks of. Where
that cannot name an attribute, looking ahead stumbles over it; everything else is a move or a
refusal.

## Main statements

* `decide_next` — what deciding a request for the next stage fails for.
* `next_moves_or_refuses` — what such a request comes to, in every session.
-/

namespace Stageflow

open Run

variable {w : Workflow} {item : Item} {stage : Stage} {level : Option Level} {attributes : Fields}

/-! ## Stumbling -/

/-- Whether it is left to a predicate of a stage whether an item of a level skips the stage. -/
structure Stage.LeavesTo (stage : Stage) (level : Option Level) (p : Predicate) : Prop where
  predicate : stage.skipIf = some p
  undecided : ∀ l ∈ level, stage.id ∉ l.requiredStages ∧ stage.id ∉ l.skipStages

/-- A predicate cannot be asked exactly if its subject is an array or an object. -/
theorem Predicate.holds_eq_error {p : Predicate} {defect : Defect} :
    p.holds attributes = .error defect ↔
      ¬ p.subject.isKey ∧ defect = .unhashable p.subject.kindName := by
  unfold Predicate.holds Predicate.lookup
  by_cases hkey : p.subject.isKey
  · simp [hkey, bind, Except.bind, pure, Except.pure]
  · simp [hkey, bind, Except.bind, eq_comm]

/-- Whether a stage is skipped cannot be told exactly if it is left to a predicate that cannot be
asked. -/
theorem Stage.skippedBy_eq_error {defect : Defect} :
    stage.skippedBy level attributes = .error defect ↔
      ∃ p, stage.LeavesTo level p ∧ ¬ p.subject.isKey ∧
        defect = .unhashable p.subject.kindName := by
  rw [Stage.skippedBy_def]
  by_cases hrequired : ∃ l ∈ level, stage.id ∈ l.requiredStages
  · rw [if_pos hrequired]
    obtain ⟨l, hl, hmem⟩ := hrequired
    exact ⟨nofun, fun ⟨p, hleaves, _⟩ => absurd hmem (hleaves.undecided l hl).1⟩
  · rw [if_neg hrequired]
    by_cases hskip : ∃ l ∈ level, stage.id ∈ l.skipStages
    · rw [if_pos hskip]
      obtain ⟨l, hl, hmem⟩ := hskip
      exact ⟨nofun, fun ⟨p, hleaves, _⟩ => absurd hmem (hleaves.undecided l hl).2⟩
    · rw [if_neg hskip]
      have hundecided : ∀ l ∈ level, stage.id ∉ l.requiredStages ∧ stage.id ∉ l.skipStages :=
        fun l hl => ⟨fun hmem => hrequired ⟨l, hl, hmem⟩, fun hmem => hskip ⟨l, hl, hmem⟩⟩
      cases hpredicate : stage.skipIf with
      | none =>
        refine ⟨nofun, fun ⟨p, hleaves, _⟩ => ?_⟩
        cases hpredicate.symm.trans hleaves.predicate
      | some p =>
        refine ⟨fun h => ⟨p, ⟨hpredicate, hundecided⟩, Predicate.holds_eq_error.1 h⟩, ?_⟩
        rintro ⟨p', hleaves, hdefect⟩
        cases hpredicate.symm.trans hleaves.predicate
        exact Predicate.holds_eq_error.2 hdefect

/-- Whether an item stumbles over a predicate on the way to its next stage: the first stage that it
does not pass over leaves it to that predicate whether it is skipped, and the subject of the
predicate is an array or an object. -/
structure Workflow.Stumbles (w : Workflow) (item : Item) (p : Predicate) : Prop where
  faces : ∃ between next, w.Faces item between next ∧ next.LeavesTo (w.level? item.complexity) p
  nameless : ¬ p.subject.isKey

namespace Workflow

theorem Stumbles.routeAhead_eq {p : Predicate} (staged : w.Staged) (stumbles : w.Stumbles item p) :
    w.routeAhead item = .error (.defect (.unhashable p.subject.kindName)) := by
  obtain ⟨⟨between, next, faces, hleaves⟩, hnameless⟩ := stumbles
  exact staged.routeAhead_of_defect faces (Stage.skippedBy_eq_error.2 ⟨p, hleaves, hnameless, rfl⟩)

/-- The way to the next stage is found, is refused as illegal, or stumbles over a predicate. -/
theorem Staged.routeAhead_cases (staged : w.Staged) (has : w.Has item) :
    (∃ route, w.routeAhead item = .ok route) ∨
      (∃ target reason, w.routeAhead item =
        .error (.illegal item.id item.status target reason)) ∨ ∃ p, w.Stumbles item p := by
  obtain ⟨current, hplaced⟩ := has.placed
  obtain ⟨before, behind, horder, hpassed⟩ | ⟨between, next, faces⟩ := passes_or_faces hplaced
  · exact .inr (.inl ⟨_, _, staged.routeAhead_of_passed hplaced horder hpassed⟩)
  · cases hskipped : next.skippedBy (w.level? item.complexity) item.attributes with
    | ok answer =>
      obtain ⟨target, skipped, hadvances⟩ | hillegal := staged.advances_or_illegal hskipped faces
      · exact .inl ⟨_, staged.routeAhead_of_advances hskipped hadvances⟩
      · exact .inr (.inl hillegal)
    | error defect =>
      obtain ⟨p, hleaves, hnameless, -⟩ := Stage.skippedBy_eq_error.1 hskipped
      exact .inr (.inr ⟨p, ⟨between, next, faces, hleaves⟩, hnameless⟩)

/-- What stands against leaving a stage is a refusal. -/
theorem isRefusal_checkLeave {fault : Fault} (h : w.checkLeave item stage = .error fault) :
    fault.isRefusal := by
  unfold checkLeave at h
  dsimp only at h
  split at h
  · cases h
    rfl
  · split at h
    · cases h
      rfl
    · cases h

/-- A request for the next stage is decided against by a refusal, unless the item stumbles. -/
theorem isRefusal_decide (staged : w.Staged) (connected : w.Connected) (has : w.Has item)
    (steady : ∀ p, ¬ w.Stumbles item p) {fault : Fault}
    (h : w.decide item (.str nextStage) = .error fault) : fault.isRefusal := by
  obtain ⟨current, hplaced⟩ := has.placed
  have hahead : w.route item (.str nextStage) = w.routeAhead item := by simp [route]
  unfold decide at h
  obtain ⟨route, hroute⟩ | ⟨target, reason, hillegal⟩ | ⟨p, hp⟩ := staged.routeAhead_cases has
  · rw [hahead, hroute, ok_bind] at h
    obtain ⟨goal, hgoal⟩ := connected.placed _ (route_carries connected.carries
      (hahead.trans hroute) (status?_isSome_of_stageOf hplaced))
    simp only [hplaced, hgoal, Except.mapError, ok_bind] at h
    split at h
    · cases h
    · cases hleave : w.checkLeave item current with
      | ok _ =>
        rw [hleave] at h
        cases h
      | error reason =>
        rw [hleave] at h
        cases h
        exact isRefusal_checkLeave hleave
  · rw [hahead, hillegal] at h
    cases h
    rfl
  · exact absurd hp (steady p)

end Workflow

/-! ## Requests -/

namespace Run

variable {s t : System} {id : String} {target : Json} {actor : Actor} {fault : Fault}

/-- A request that is decided against fails for that, if the lock of the item is to be had. -/
theorem moveItem_of_decide (stored : s.items.get? id = some item)
    (version : s.registry.version item.team item.workflowVersion = .ok w)
    (inTime : s.settings.waitsTooLong = false) (free : id ∉ s.held)
    (decided : w.decide item target = .error fault) :
    ∃ u, moveItem Run.publish id target actor s = .error (.raised fault) u := by
  have hcommit : commitMove id target actor { s with held := id :: s.held } =
      .error (.raised fault) (overtake { s with held := id :: s.held } id item) := by
    unfold commitMove
    rw [bind_apply, loadItem_apply, stored]
    dsimp only
    rw [workflowOf_bind_apply, registry_overtake, version]
    dsimp only
    rw [ofExcept_bind_apply, decided]
  unfold moveItem
  rw [bind_apply, underLock_apply]
  simp only [inTime, Bool.false_eq_true, if_false, free, hcommit]
  exact ⟨_, rfl⟩

end Run

/-- In every session, a request to move a stored item to the next stage either moves it or is
refused, unless the item stumbles over the predicate of a stage of its workflow; then the request
always fails for that predicate. The times to wait for the lock of an item and for subscribers are
assumed to be in range. -/
theorem next_moves_or_refuses {s : System} (new : s.New) (coherent : s.registry.Coherent)
    (compiled : s.registry.Compiled) (idle : s.IsIdle) (ops : List Operation) {id : String}
    {item : Item} (stored : (s.through ops).items.get? id = some item)
    (inTime : (s.through ops).settings.InTime) (actor : Actor) :
    ∃ w, (s.through ops).registry.version item.team item.workflowVersion = .ok w ∧
      ((∀ p, ¬ w.Stumbles item p) →
        match Run.moveItem Run.publish id (.str nextStage) actor (s.through ops) with
        | .ok _ _ => True
        | .error (.raised fault) _ => fault.isRefusal
        | .error .hung _ => False) ∧
      ∀ p, w.Stumbles item p → id ∉ (s.through ops).held →
        ∃ t, Run.moveItem Run.publish id (.str nextStage) actor (s.through ops) =
          .error (.raised (.defect (.unhashable p.subject.kindName))) t := by
  have bound := bound_through new coherent compiled ops
  have hidle := idle_through idle ops
  generalize s.through ops = t at stored inTime bound hidle
  obtain ⟨w, hw, has⟩ := bound.items id item stored
  have hfound : t.registry.version? item.team item.workflowVersion = some w := hw
  have hversion : t.registry.version item.team item.workflowVersion = .ok w := by
    rw [Registry.version, hfound]
  obtain ⟨document, -, hcompiled⟩ := bound.compiled _ _ w hfound
  have staged := compile_staged hcompiled
  refine ⟨w, hversion, fun steady => ?_, fun p stumbles hfree => ?_⟩
  · have hreturns := returns_moveItem returns_publish id (.str nextStage) actor t hidle
    unfold Ends at hreturns
    split
    · trivial
    · rename_i fault u hfailed
      obtain ⟨htooLong, -⟩ | rfl | hdecide | ⟨_, _, rfl⟩ | ⟨htooLong, -⟩ :=
        moveItem_raises (bound.keyed id item stored) stored hversion hfailed
      · exact absurd htooLong (by simp [inTime.locks])
      · rfl
      · exact Workflow.isRefusal_decide staged (compile_connected hcompiled) has steady hdecide
      · rfl
      · exact absurd htooLong (by simp [inTime.deliveries])
    · rename_i hhung
      rwa [hhung] at hreturns
  · refine moveItem_of_decide stored hversion inTime.locks hfree ?_
    have hroute : w.route item (.str nextStage) = w.routeAhead item := by simp [Workflow.route]
    unfold Workflow.decide
    rw [hroute, stumbles.routeAhead_eq staged]
    rfl

/-- The raw document of a team of three stages; the predicate of the second one asks whether items
have an attribute. -/
def askingDocument (subject : Json) : Json :=
  .obj [("team", .obj [("id", .str "t")]),
    ("stages", .arr [.obj [("id", .str "draft")],
      .obj [("id", .str "review"), ("skip_if",
        .obj [("attribute", subject), ("op", .str "exists")])],
      .obj [("id", .str "release")]]),
    ("statuses", .arr ([("D", "draft"), ("R", "review"), ("L", "release")].map fun p =>
      .obj [("id", .str p.1), ("stage_id", .str p.2)])),
    ("transitions", .arr ([("D", ["R", "L"]), ("R", ["L"])].map fun p =>
      .obj [("from", .str p.1), ("to", .arr (p.2.map .str))]))]

/-- The team is activated, and an item without attributes is created. -/
def askingSession (subject : Json) : List Operation :=
  [.putDocument (askingDocument subject), .activate "t", .create { team := "t", id := some "i" }]

/-- Where the predicate asks of a name, the item stumbles over nothing and is moved to the second
stage. -/
theorem next_moves_or_refuses_named :
    let s := System.through {} (askingSession (.str "urgent"))
    ∃ w item, s.items.get? "i" = some item ∧ s.registry.version "t" 1 = .ok w ∧
      (∀ p, ¬ w.Stumbles item p) ∧ ∃ passage t,
        Run.moveItem Run.publish "i" (.str nextStage) {} s = .ok passage t ∧
        passage.move.route = ⟨"R", []⟩ := by
  intro s
  have hrun : (Run.moveItem Run.publish "i" (.str nextStage) {}).succeeds s fun passage _ =>
      decide (passage.move.route = ⟨"R", []⟩) := by decide +kernel
  have hstate : (s.items.get? "i").map (fun item => (item.team, item.workflowVersion)) =
      some ("t", 1) ∧ (s.settings.waitsTooLong = false ∧ s.settings.deliversTooLong = false) ∧
        s.held = [] := by decide +kernel
  obtain ⟨passage, t, hmove, hroute⟩ := Run.succeeds_iff.1 hrun
  obtain ⟨hitem, hinTime, hheld⟩ := hstate
  obtain ⟨item, hitem, hbound⟩ := Option.map_eq_some_iff.1 hitem
  obtain ⟨hteam, hversion⟩ := Prod.mk.inj hbound
  obtain ⟨w, hw, -, hstumbles⟩ := next_moves_or_refuses (System.new_default {})
    Registry.coherent_empty Registry.compiled_empty rfl (askingSession (.str "urgent")) hitem
    ⟨hinTime.1, hinTime.2⟩ {}
  rw [hteam, hversion] at hw
  have hfree : "i" ∉ s.held := by
    rw [hheld]
    exact List.not_mem_nil
  refine ⟨w, item, hitem, hw, fun p hp => ?_, passage, t, hmove, of_decide_eq_true hroute⟩
  obtain ⟨u, hfailed⟩ := hstumbles p hp hfree
  cases hmove.symm.trans hfailed

/-- Where the predicate asks of an array, the document is activated all the same, and a request to
move the item to the next stage is neither granted nor refused. -/
theorem next_stumbles :
    let s := System.through {} (askingSession (.arr [.str "urgent"]))
    (∃ w u, Run.activate "t" (System.through {} [.putDocument (askingDocument
      (.arr [.str "urgent"]))]) = .ok w u) ∧ (s.items.get? "i").isSome ∧
      ∃ fault t, Run.moveItem Run.publish "i" (.str nextStage) {} s = .error (.raised fault) t ∧
        fault.isRefusal = false := by
  intro s
  have hactivated : (Run.activate "t").succeeds (System.through {} [.putDocument (askingDocument
      (.arr [.str "urgent"]))]) fun _ _ => true := by decide +kernel
  have hrun : (match Run.moveItem Run.publish "i" (.str nextStage) {} s with
      | .error (.raised fault) _ => !fault.isRefusal
      | _ => false) = true := by decide +kernel
  have hstored : (s.items.get? "i").isSome := by decide +kernel
  obtain ⟨w, u, hw, -⟩ := Run.succeeds_iff.1 hactivated
  refine ⟨⟨w, u, hw⟩, hstored, ?_⟩
  split at hrun
  · rename_i fault t hfailed
    exact ⟨fault, t, hfailed, by simpa using hrun⟩
  · cases hrun

end Stageflow
