import Stageflow.Proofs.Reach
import Stageflow.Proofs.WellBound

/-!
# The next stage

Which stage an item visits next, and when it gets there. Looking ahead passes over the stages that
are not required or skipped, and stops at the first other one; that one is entered by its entry
status, over a path of moves on which every status in between is the entry status of a stage passed
over.

## Main statements

* `Ahead.look_append` — what looking ahead makes of stages that are passed over.
* `route_next_iff` — where a request for the next stage leads in a compiled workflow.
-/

namespace Stageflow

variable {w : Workflow} {item : Item} {stage next : Stage} {between : List Stage}
  {level : Option Level} {attributes : Fields}

/-! ## Skipped stages -/

/-- Whether an item of a level skips a stage: the level does not require it, and skips it or leaves
it to the predicate of the stage, which holds of the attributes. -/
structure Stage.Skips (stage : Stage) (level : Option Level) (attributes : Fields) : Prop where
  optional : ∀ l ∈ level, stage.id ∉ l.requiredStages
  chosen : (∃ l ∈ level, stage.id ∈ l.skipStages) ∨
    ∃ p ∈ stage.skipIf, p.holds attributes = .ok true

/-- Whether an item of a level passes a stage over. -/
def Stage.IsPassed (stage : Stage) (level : Option Level) (attributes : Fields) : Prop :=
  stage.requiredFor level → stage.Skips level attributes

theorem any_contains {texts : Level → List String} {id : String} :
    (level.any fun l => (texts l).contains id) = true ↔ ∃ l ∈ level, id ∈ texts l := by
  simp [Option.any_eq_true]

/-- A level that requires a stage comes before one that skips it, and both before the predicate of
the stage. -/
theorem Stage.skippedBy_def :
    stage.skippedBy level attributes =
      if ∃ l ∈ level, stage.id ∈ l.requiredStages then .ok false
      else if ∃ l ∈ level, stage.id ∈ l.skipStages then .ok true
      else match stage.skipIf with
        | none => .ok false
        | some p => p.holds attributes := by
  unfold Stage.skippedBy
  refine if_congr any_contains rfl (if_congr any_contains rfl ?_)
  cases stage.skipIf <;> rfl

theorem Stage.skippedBy_eq_true :
    stage.skippedBy level attributes = .ok true ↔ stage.Skips level attributes := by
  rw [Stage.skippedBy_def]
  by_cases hrequired : ∃ l ∈ level, stage.id ∈ l.requiredStages
  · rw [if_pos hrequired]
    obtain ⟨l, hl, hmem⟩ := hrequired
    exact ⟨nofun, fun h => absurd hmem (h.optional l hl)⟩
  · rw [if_neg hrequired]
    have hoptional : ∀ l ∈ level, stage.id ∉ l.requiredStages := fun l hl hmem =>
      hrequired ⟨l, hl, hmem⟩
    by_cases hskip : ∃ l ∈ level, stage.id ∈ l.skipStages
    · rw [if_pos hskip]
      exact ⟨fun _ => ⟨hoptional, .inl hskip⟩, fun _ => rfl⟩
    · rw [if_neg hskip]
      cases hpredicate : stage.skipIf with
      | none =>
        refine ⟨nofun, fun h => ?_⟩
        obtain hskips | ⟨p, hp, -⟩ := h.chosen
        · exact absurd hskips hskip
        · cases hpredicate.symm.trans hp
      | some p =>
        refine ⟨fun h => ⟨hoptional, .inr ⟨p, hpredicate, h⟩⟩, fun h => ?_⟩
        obtain hskips | ⟨p', hp, hholds⟩ := h.chosen
        · exact absurd hskips hskip
        · cases hpredicate.symm.trans hp
          exact hholds

/-! ## Looking ahead -/

namespace Ahead

/-- An outlook behind some stages that were passed over. -/
def beyond (level : Option Level) (between : List Stage) (ahead : Ahead) : Ahead where
  stage := ahead.stage
  passed := between.map (·.id) ++ ahead.passed
  skipped := (between.filter (·.requiredFor level)).map (·.id) ++ ahead.skipped

/-- Looking ahead goes on behind stages that are passed over. -/
theorem look_append (passed : ∀ stage ∈ between, stage.IsPassed level attributes)
    (rest : List Stage) :
    look level attributes (between ++ rest) =
      (look level attributes rest).map (Ahead.beyond level between) := by
  induction between with
  | nil =>
    rw [List.nil_append]
    cases look level attributes rest <;> rfl
  | cons stage between ih =>
    obtain ⟨hstage, hbetween⟩ := List.forall_mem_cons.1 passed
    rw [List.cons_append, look]
    by_cases hrequired : stage.requiredFor level
    · have hskipped := Stage.skippedBy_eq_true.2 (hstage hrequired)
      rw [if_neg (by simpa using hrequired), ih hbetween, hskipped]
      cases look level attributes rest <;>
        simp [Except.map, Ahead.beyond, hrequired, bind, Except.bind, pure, Except.pure]
    · rw [if_pos (by simpa using hrequired), ih hbetween]
      cases look level attributes rest <;>
        simp [Except.map, Ahead.beyond, hrequired, bind, Except.bind, pure, Except.pure]

/-- Looking ahead over stages that are all passed over finds none. -/
theorem look_of_passed (passed : ∀ stage ∈ between, stage.IsPassed level attributes) :
    look level attributes between = .ok (Ahead.beyond level between {}) := by
  have h := look_append passed []
  rwa [List.append_nil] at h

/-- Looking ahead stops at a stage that is not passed over, if it can be told that it is not. -/
theorem look_cons (stops : ¬ next.IsPassed level attributes) (rest : List Stage) :
    look level attributes (next :: rest) =
      (next.skippedBy level attributes).map fun _ => { stage := some next } := by
  obtain ⟨hrequired, hnot⟩ := Classical.not_imp.1 stops
  rw [look, if_neg (by simpa using hrequired)]
  cases hskipped : next.skippedBy level attributes with
  | error defect => rfl
  | ok skipped =>
    cases skipped with
    | false => rfl
    | true => exact absurd (Stage.skippedBy_eq_true.1 hskipped) hnot

/-- Among some stages either all are passed over, or there is a first one that is not. -/
theorem passed_or_exists_first (level : Option Level) (attributes : Fields) (stages : List Stage) :
    (∀ stage ∈ stages, stage.IsPassed level attributes) ∨
      ∃ between next rest, stages = between ++ next :: rest ∧
        (∀ stage ∈ between, stage.IsPassed level attributes) ∧
        ¬ next.IsPassed level attributes := by
  induction stages with
  | nil => exact .inl (by simp)
  | cons stage stages ih =>
    by_cases hstage : stage.IsPassed level attributes
    · obtain hall | ⟨between, next, rest, rfl, hbetween, hnext⟩ := ih
      · exact .inl (List.forall_mem_cons.2 ⟨hstage, hall⟩)
      · exact .inr ⟨stage :: between, next, rest, rfl, List.forall_mem_cons.2 ⟨hstage, hbetween⟩,
          hnext⟩
    · exact .inr ⟨[], stage, stages, rfl, by simp, hstage⟩

end Ahead

/-! ## Entry statuses -/

/-- Whether a stage is entered by a status: the one that it names, else the first one declared in
it. -/
def Workflow.Enters (w : Workflow) (stage : Stage) (status : String) : Prop :=
  stage.entryStatus = .str status ∨ stage.entryStatus = .null ∧
    ∃ s ∈ w.statuses.find? (·.stage = stage.id), s.id = status

theorem isIdentifier_of_identifier {what id : String} {value : Json}
    (h : identifier what value = .ok id) : Text.isIdentifier id := by
  unfold identifier at h
  split at h
  · split at h <;> cases h
    assumption
  · cases h

/-- The id of a status is an identifier. -/
theorem Status.isIdentifier_id {raw : Json} {s : Status} (h : Status.parse raw = .ok s) :
    Text.isIdentifier s.id := by
  unfold Status.parse at h
  obtain ⟨fields, -, h⟩ := bind_eq_ok.1 h
  obtain ⟨value, -, h⟩ := bind_eq_ok.1 h
  obtain ⟨id, hid, h⟩ := bind_eq_ok.1 h
  split at h
  · cases h
    exact isIdentifier_of_identifier hid
  · cases h

theorem Status.id_ne_empty {raw : Json} {s : Status} (h : Status.parse raw = .ok s) :
    s.id ≠ "" := by
  intro hempty
  have hidentifier := Status.isIdentifier_id h
  rw [hempty] at hidentifier
  exact absurd hidentifier (by decide)

/-- What is known of the stages of a compiled workflow: their ids occur once, and each is entered by
a status that is placed in it. -/
structure Workflow.Staged (w : Workflow) : Prop where
  distinct : (w.stages.map (·.id)).Nodup
  entryStatus?_eq_some : ∀ stage ∈ w.stages, ∀ status,
    w.entryStatus? stage.id = some status ↔ w.Enters stage status
  placed : ∀ stage ∈ w.stages, ∀ status, w.Enters stage status → w.stageOf status = .ok stage

theorem compile_staged {document : MergedDocument} {version : Int}
    (compiled : document.compile version = .ok w) : w.Staged := by
  obtain ⟨d, reads, wellFormed, hstatuses, -, -, hstages, -⟩ := compile_wellFormed compiled
  have hdistinct : (w.stages.map (·.id)).Nodup := hstages ▸ wellFormed.stageIds
  have hfound {stage : Stage} (hstage : stage ∈ w.stages) : w.stage? stage.id = some stage :=
    find?_of_nodup hdistinct hstage
  have hplace {status stage : String} (h : d.Places status stage) :
      ∃ s, w.status? status = some s ∧ s.stage = stage := by
    rw [← ParsedDocument.stageOf?_eq_some wellFormed.statusIds, ParsedDocument.stageOf?] at h
    rw [Workflow.status?, hstatuses]
    exact Option.map_eq_some_iff.1 h
  refine ⟨hdistinct, fun stage hstage status => ?_, fun stage hstage status henters => ?_⟩
  · unfold Workflow.entryStatus? Workflow.Enters
    rw [hfound hstage]
    obtain hnull | ⟨named, hnamed, s, hs, rfl, -⟩ := wellFormed.entry stage (hstages ▸ hstage)
    · simp [hnull]
    · have hids := (List.forall₂_and_left _ _).1
        (reads.statuses.flip.imp fun s raw h => ⟨Status.id_ne_empty h, h⟩)
      simp [hnamed, hids.1 s hs]
  · have hplaces : d.Places status stage.id := by
      obtain hnamed | ⟨-, s, hfirst, rfl⟩ := henters
      · obtain hnull | ⟨named, hown, hplaces⟩ := wellFormed.entry stage (hstages ▸ hstage)
        · cases hnull.symm.trans hnamed
        · cases hown.symm.trans hnamed
          exact hplaces
      · exact ⟨s, hstatuses ▸ List.mem_of_find?_eq_some hfirst, rfl,
          by simpa using List.find?_some hfirst⟩
    obtain ⟨s, hs, hown⟩ := hplace hplaces
    simp [Workflow.stageOf, hs, hown, hfound hstage]

/-! ## The next stage -/

/-- Whether `next` is the stage that an item visits next, behind some stages it passes over: the
first one behind its own, in the order of the stages, that is required and not skipped. -/
structure Workflow.Faces (w : Workflow) (item : Item) (between : List Stage) (next : Stage) :
    Prop where
  order : ∃ current before after, w.stageOf item.status = .ok current ∧
    w.stages = before ++ current :: (between ++ next :: after)
  passed : ∀ stage ∈ between, stage.IsPassed (w.level? item.complexity) item.attributes
  stops : ¬ next.IsPassed (w.level? item.complexity) item.attributes

/-- Whether an item can go to a status: it is the entry status of the stage that the item visits
next, and there is a path to it over entry statuses of the stages passed over. Those of them that
are required are skipped. -/
structure Workflow.Advances (w : Workflow) (item : Item) (target : String)
    (skipped : List String) (between : List Stage) (next : Stage) : Prop where
  faces : w.Faces item between next
  enters : w.Enters next target
  skipped : skipped = (between.filter (·.requiredFor (w.level? item.complexity))).map (·.id)
  path : w.edges.Path (fun status => ∃ stage ∈ between, w.Enters stage status) item.status target

/-- Whether every stage of a workflow asks its predicate, if it has one, of an attribute with a
name. -/
def Workflow.AsksOfNames (w : Workflow) : Prop :=
  ∀ stage ∈ w.stages, ∀ p ∈ stage.skipIf, ∃ name, p.subject = .str name

namespace Workflow

/-- The stages behind one that occurs once. -/
theorem stagesAfter_append (distinct : (w.stages.map (·.id)).Nodup) {before rest : List Stage}
    (order : w.stages = before ++ stage :: rest) : w.stagesAfter stage.id = .ok rest := by
  rw [order, List.map_append, List.map_cons, List.nodup_append] at distinct
  have hbefore : before.findIdx? (·.id = stage.id) = none := by
    rw [List.findIdx?_eq_none_iff]
    intro other hother
    simpa using distinct.2.2 other.id (List.mem_map_of_mem hother) stage.id (by simp)
  have hposition : w.stagePosition? stage.id = some before.length := by
    rw [stagePosition?, order, List.findIdx?_append, hbefore]
    simp [List.findIdx?_cons]
  simp [stagesAfter, hposition, order, List.drop_append]

/-- The outlook of an item is over the stages behind its own. -/
theorem Staged.routeAhead_of_order (staged : w.Staged) {current : Stage}
    {before behind : List Stage} (placed : w.stageOf item.status = .ok current)
    (order : w.stages = before ++ current :: behind) {outlook : Except Defect Ahead}
    (look : Ahead.look (w.level? item.complexity) item.attributes behind = outlook) :
    w.routeAhead item = (outlook.mapError .defect).bind fun ahead =>
      match ahead.stage.bind fun stage => w.entryStatus? stage.id with
      | none => .error (.illegal item.id item.status nextStage "no next required stage")
      | some target =>
        if w.allows item.status target ||
            w.edges.leadsOver (ahead.passed.filterMap w.entryStatus?) item.status target then
          .ok { target, skipped := ahead.skipped }
        else .error (.illegal item.id item.status target none) := by
  simp only [routeAhead, placed, stagesAfter_append staged.distinct order, look, Except.mapError,
    ok_bind]
  rfl

/-- Either an item passes over all the stages behind its own, or it faces one of them. -/
theorem passes_or_faces {current : Stage} (placed : w.stageOf item.status = .ok current) :
    (∃ before behind, w.stages = before ++ current :: behind ∧
      ∀ stage ∈ behind, stage.IsPassed (w.level? item.complexity) item.attributes) ∨
      ∃ between next, w.Faces item between next := by
  obtain ⟨s, -, hfound, -⟩ := stageOf_ok placed
  obtain ⟨before, behind, horder⟩ := List.append_of_mem (List.mem_of_find?_eq_some hfound)
  obtain hall | ⟨between, next, after, rfl, hpassed, hstops⟩ :=
    Ahead.passed_or_exists_first (w.level? item.complexity) item.attributes behind
  · exact .inl ⟨before, behind, horder, hall⟩
  · exact .inr ⟨between, next, ⟨current, before, after, placed, horder⟩, hpassed, hstops⟩

/-- Where all stages are passed over, there is no next one. -/
theorem Staged.routeAhead_of_passed (staged : w.Staged) {current : Stage}
    {before behind : List Stage} (placed : w.stageOf item.status = .ok current)
    (order : w.stages = before ++ current :: behind)
    (passed : ∀ stage ∈ behind, stage.IsPassed (w.level? item.complexity) item.attributes) :
    w.routeAhead item =
      .error (.illegal item.id item.status nextStage "no next required stage") :=
  staged.routeAhead_of_order placed order (Ahead.look_of_passed passed)

/-- An item that cannot be told to skip the stage that it faces gets no further. -/
theorem Staged.routeAhead_of_defect (staged : w.Staged) (faces : w.Faces item between next)
    {defect : Defect} (untold : next.skippedBy (w.level? item.complexity) item.attributes =
      .error defect) : w.routeAhead item = .error (.defect defect) := by
  obtain ⟨current, before, after, hplaced, horder⟩ := faces.order
  have hlook : Ahead.look (w.level? item.complexity) item.attributes (between ++ next :: after) =
      .error defect := by
    rw [Ahead.look_append faces.passed, Ahead.look_cons faces.stops, untold]
    rfl
  exact staged.routeAhead_of_order hplaced horder hlook

theorem Faces.mem_stages (faces : w.Faces item between next) :
    (∀ stage ∈ between, stage ∈ w.stages) ∧ next ∈ w.stages := by
  obtain ⟨current, before, after, -, horder⟩ := faces.order
  simp +contextual [horder]

/-- The moves that are tried make up a path over the entry statuses of the stages passed over. -/
theorem Staged.leads_iff (staged : w.Staged) (stages : ∀ stage ∈ between, stage ∈ w.stages)
    {target : String} :
    w.allows item.status target ||
        w.edges.leadsOver ((between.map (·.id)).filterMap w.entryStatus?) item.status target ↔
      w.edges.Path (fun status => ∃ stage ∈ between, w.Enters stage status) item.status target := by
  have hwaypoint (status : String) :
      status ∈ (between.map (·.id)).filterMap w.entryStatus? ↔
        ∃ stage ∈ between, w.Enters stage status := by
    simp only [List.mem_filterMap, List.mem_map, exists_exists_and_eq_and]
    exact exists_congr fun stage => and_congr_right fun hstage =>
      staged.entryStatus?_eq_some stage (stages stage hstage) status
  rw [Bool.or_eq_true_iff, Edges.leadsOver_iff]
  constructor
  · rintro (hallows | hpath)
    · exact .move (by simpa [allows, Edges.allows, Edges.Steps] using hallows)
    · exact hpath.imp fun status => (hwaypoint status).1
  · exact fun hpath => .inr (hpath.imp fun status => (hwaypoint status).2)

section

variable {answer : Bool} {target : String}
  (told : next.skippedBy (w.level? item.complexity) item.attributes = .ok answer)

include told

/-- An item that faces a stage, and is told not to skip it, goes by the entry status of it. -/
theorem Staged.routeAhead_of_faces (staged : w.Staged) (faces : w.Faces item between next) :
    w.routeAhead item =
      match w.entryStatus? next.id with
      | none => .error (.illegal item.id item.status nextStage "no next required stage")
      | some target =>
        if w.allows item.status target || w.edges.leadsOver
            ((between.map (·.id)).filterMap w.entryStatus?) item.status target then
          .ok { target, skipped := (between.filter (·.requiredFor
            (w.level? item.complexity))).map (·.id) }
        else .error (.illegal item.id item.status target none) := by
  obtain ⟨current, before, after, hplaced, horder⟩ := faces.order
  have hlook : Ahead.look (w.level? item.complexity) item.attributes (between ++ next :: after) =
      .ok (Ahead.beyond (w.level? item.complexity) between { stage := some next }) := by
    rw [Ahead.look_append faces.passed, Ahead.look_cons faces.stops, told]
    rfl
  rw [staged.routeAhead_of_order hplaced horder hlook]
  simp [Ahead.beyond, Except.mapError, Except.bind]

/-- An item that advances is routed to where it gets. -/
theorem Staged.routeAhead_of_advances (staged : w.Staged) {skipped : List String}
    (advances : w.Advances item target skipped between next) :
    w.routeAhead item = .ok ⟨target, skipped⟩ := by
  obtain ⟨faces, henters, rfl, hpath⟩ := advances
  obtain ⟨hstages, hnext⟩ := faces.mem_stages
  rw [staged.routeAhead_of_faces told faces,
    (staged.entryStatus?_eq_some next hnext target).2 henters]
  exact if_pos ((staged.leads_iff hstages).2 hpath)

/-- An item that faces a stage, and is told not to skip it, advances or is refused. -/
theorem Staged.advances_or_illegal (staged : w.Staged) (faces : w.Faces item between next) :
    (∃ target skipped, w.Advances item target skipped between next) ∨
      ∃ target reason, w.routeAhead item =
        .error (.illegal item.id item.status target reason) := by
  obtain ⟨hstages, hnext⟩ := faces.mem_stages
  rw [staged.routeAhead_of_faces told faces]
  cases hentry : w.entryStatus? next.id with
  | none => exact .inr ⟨_, _, rfl⟩
  | some target =>
    have henters := (staged.entryStatus?_eq_some next hnext target).1 hentry
    by_cases hpath : w.edges.Path (fun status => ∃ stage ∈ between, w.Enters stage status)
        item.status target
    · exact .inl ⟨target, _, faces, henters, rfl, hpath⟩
    · exact .inr ⟨_, _, if_neg fun hleads => hpath ((staged.leads_iff hstages).1 hleads)⟩

end

theorem AsksOfNames.skippedBy_ok (asks : w.AsksOfNames) (hstage : stage ∈ w.stages) :
    ∃ answer, stage.skippedBy level attributes = .ok answer := by
  unfold Stage.skippedBy
  split
  · exact ⟨_, rfl⟩
  · split
    · exact ⟨_, rfl⟩
    · split
      · exact ⟨_, rfl⟩
      · rename_i p hp
        obtain ⟨name, hname⟩ := asks stage hstage p hp
        exact ⟨_, by rw [Predicate.holds, Predicate.lookup, hname]; rfl⟩

end Workflow

/-- Where a request for the next stage leads, for an item of a compiled workflow whose stages ask
their predicates of named attributes. It leads to the entry status of the first stage behind the
item's own that is required and not skipped, which that status lies in, exactly if there is a path
over entry statuses of the stages passed over; everything else is refused as illegal. -/
theorem route_next_iff {document : MergedDocument} {version : Int}
    (compiled : document.compile version = .ok w) (asks : w.AsksOfNames) (has : w.Has item) :
    (∀ route, w.route item (.str nextStage) = .ok route ↔
      ∃ between next, w.Advances item route.target route.skipped between next) ∧
    (∀ between next target skipped, w.Advances item target skipped between next →
      w.stageOf target = .ok next) ∧
    ∀ fault, w.route item (.str nextStage) = .error fault →
      ∃ target reason, fault = .illegal item.id item.status target reason := by
  have staged := compile_staged compiled
  obtain ⟨current, hplaced⟩ := has.placed
  have hroute : w.route item (.str nextStage) = w.routeAhead item := by
    simp [Workflow.route]
  have hadvances {between : List Stage} {next : Stage} {target : String} {skipped : List String}
      (h : w.Advances item target skipped between next) :
      w.routeAhead item = .ok ⟨target, skipped⟩ := by
    obtain ⟨answer, htold⟩ := asks.skippedBy_ok h.faces.mem_stages.2
    exact staged.routeAhead_of_advances htold h
  have hends : (∃ target skipped between next, w.Advances item target skipped between next) ∨
      ∃ target reason, w.routeAhead item =
        .error (.illegal item.id item.status target reason) := by
    obtain ⟨before, behind, horder, hpassed⟩ | ⟨between, next, faces⟩ :=
      Workflow.passes_or_faces hplaced
    · exact .inr ⟨_, _, staged.routeAhead_of_passed hplaced horder hpassed⟩
    · obtain ⟨answer, htold⟩ := asks.skippedBy_ok faces.mem_stages.2
      obtain ⟨target, skipped, h⟩ | h := staged.advances_or_illegal htold faces
      · exact .inl ⟨target, skipped, between, next, h⟩
      · exact .inr h
  rw [hroute]
  refine ⟨fun route => ⟨fun h => ?_, ?_⟩, fun between next target skipped h => ?_,
    fun fault h => ?_⟩
  · obtain ⟨target, skipped, between, next, hadv⟩ | ⟨target, reason, herror⟩ := hends
    · cases h.symm.trans (hadvances hadv)
      exact ⟨between, next, hadv⟩
    · cases h.symm.trans herror
  · rintro ⟨between, next, h⟩
    exact hadvances h
  · exact staged.placed next h.faces.mem_stages.2 target h.enters
  · obtain ⟨target, skipped, between, next, hadv⟩ | ⟨target, reason, herror⟩ := hends
    · cases h.symm.trans (hadvances hadv)
    · cases h.symm.trans herror
      exact ⟨target, reason, rfl⟩

/-- A document of four stages, with a status each: the second one is skipped by what is urgent, the
third one is optional, and moves lead from one to the next and back. -/
def steppedMerged : MergedDocument where
  team := "t"
  name := .str "t"
  description := .str ""
  version := .str "1"
  initialStatus := .null
  sections := {
    stages := [.obj [("id", .str "draft")],
      .obj [("id", .str "review"), ("skip_if",
        .obj [("attribute", .str "urgent"), ("value", .bool true)])],
      .obj [("id", .str "audit"), ("required", .bool false)], .obj [("id", .str "release")]]
    statuses := [("D", "draft"), ("R", "review"), ("A", "audit"), ("L", "release")].map fun p =>
      .obj [("id", .str p.1), ("stage_id", .str p.2)]
    transitions := [("D", ["R"]), ("R", ["A", "D"]), ("A", ["R", "L"])].map fun p =>
      .obj [("from", .str p.1), ("to", .arr (p.2.map .str))]
    complexity := [], automation := [], metrics := [] }
  lineage := ["t"]

/-- An urgent item at the first stage. -/
def urgentItem : Item where
  id := "i"
  team := "t"
  workflowVersion := 1
  status := "D"
  attributes := [("urgent", .bool true)]

/-- An urgent item goes from the first stage to the last one, over the entry statuses of the two in
between; one of them is skipped. -/
theorem route_next_iff_urgent :
    ∃ w, steppedMerged.compile 1 = .ok w ∧
      w.route urgentItem (.str nextStage) = .ok ⟨"L", ["review"]⟩ ∧
      ∃ between next, w.Advances urgentItem "L" ["review"] between next ∧
        w.stageOf "L" = .ok next := by
  have hrun : (match steppedMerged.compile 1 with
      | .ok w => decide ((w.route urgentItem (.str nextStage)).toOption = some ⟨"L", ["review"]⟩) &&
          (w.stageOf urgentItem.status).toOption.isSome &&
          w.stages.all fun stage => stage.skipIf.all fun p => p.subject.text?.isSome
      | .error _ => false) = true := by decide +kernel
  cases hw : steppedMerged.compile 1 with
  | error fault => simp [hw] at hrun
  | ok w =>
    simp only [hw, Bool.and_eq_true, decide_eq_true_eq] at hrun
    obtain ⟨⟨hroute, hplaced⟩, hnames⟩ := hrun
    obtain ⟨stage, hstage⟩ := Option.isSome_iff_exists.1 hplaced
    have hasks : w.AsksOfNames := by
      intro stage hstage p hp
      have hname := List.all_eq_true.1 hnames stage hstage
      rw [Option.mem_def.1 hp, Option.all_some] at hname
      cases hsubject : p.subject with
      | str name => exact ⟨name, rfl⟩
      | _ => simp [hsubject, Json.text?] at hname
    have hhas : w.Has urgentItem := ⟨⟨stage, toOption_eq_some.1 hstage⟩, by
      intro level hlevel
      cases hlevel⟩
    obtain ⟨hiff, hlies, -⟩ := route_next_iff hw hasks hhas
    have hroute := toOption_eq_some.1 hroute
    obtain ⟨between, next, hadvances⟩ := (hiff _).1 hroute
    exact ⟨w, rfl, hroute, between, next, hadvances, hlies _ _ _ _ hadvances⟩

end Stageflow
