import Stageflow.Proofs.Activations
import Stageflow.Proofs.Inheritance

/-!
# Ids occur once

The elements of an activated workflow are told apart by their ids, in every section: a document is
resolved to elements with different keys, and an element goes by its key. So whoever looks for an id
finds the one element that has it.

## Main statements

* `ReadsId.elementKey_eq` — an element goes by the id that it is read with.
* `compile_distinct` — what is compiled of a resolved document has different ids.
* `ids_occur_once` — the same of an activated workflow, and what is found under an id.
-/

namespace Stageflow

/-- Whether the elements of a workflow have different ids, and its transitions different keys. -/
structure Workflow.Distinct (w : Workflow) : Prop where
  stages : (w.stages.map (·.id)).Nodup
  statuses : (w.statuses.map (·.id)).Nodup
  transitions : (w.transitions.map (·.key)).Nodup
  levels : (w.levels.map (·.id)).Nodup
  rules : (w.rules.map (·.id)).Nodup
  thresholds : (w.thresholds.map (·.id)).Nodup

/-! ## Keys of elements -/

section Keys

variable {raw : Json} {fields : Fields}

theorem elementFields_eq_ok : raw.elementFields = .ok fields ↔ raw = .obj fields := by
  cases raw <;> simp [Json.elementFields]

/-- Whether an element is read with an id: what stands under `id` is accepted, and is the id. -/
def ReadsId (what : String) (raw : Json) (id : String) : Prop :=
  ∃ fields value, raw.elementFields = .ok fields ∧ fields.require "id" = .ok value ∧
    identifier what value = .ok id

/-- An element whose id can be read goes by it. -/
theorem ReadsId.elementKey_eq {what id : String} (h : ReadsId what raw id) (sect : String) :
    elementKey sect raw = .ok id := by
  obtain ⟨fields, value, hfields, hvalue, hid⟩ := h
  rw [elementFields_eq_ok.1 hfields]
  unfold Fields.require at hvalue
  split at hvalue <;> cases hvalue
  rename_i hget
  unfold identifier at hid
  split at hid
  · split at hid <;> cases hid
    simp [elementKey, Fields.key, hget, Json.written, Json.display]
  · cases hid

/-- Where reading an element begins with its id, the element is read with it. -/
theorem readsId_of_parse {α : Type} {id : α → String} {what : String}
    {rest : Fields → String → Except Defect α}
    (keeps : ∀ fields name x, rest fields name = .ok x → id x = name) {x : α}
    (h : (do
      let fields ← raw.elementFields
      let name ← identifier what (← fields.require "id")
      rest fields name) = .ok x) :
    ReadsId what raw (id x) := by
  obtain ⟨fields, hfields, h⟩ := bind_eq_ok.1 h
  obtain ⟨value, hvalue, h⟩ := bind_eq_ok.1 h
  obtain ⟨name, hname, h⟩ := bind_eq_ok.1 h
  rw [keeps fields name x h]
  exact ⟨fields, value, hfields, hvalue, hname⟩

theorem Stage.readsId {stage : Stage} (h : Stage.parse raw = .ok stage) :
    ReadsId "stage" raw stage.id := by
  refine readsId_of_parse (fun fields name x hx => ?_) h
  obtain ⟨word, -, hx⟩ := bind_eq_ok.1 hx
  split at hx
  · obtain ⟨_, -, hx⟩ := bind_eq_ok.1 hx
    cases hx
  · obtain ⟨skipIf, -, hx⟩ := bind_eq_ok.1 hx
    obtain ⟨entryCriteria, -, hx⟩ := bind_eq_ok.1 hx
    obtain ⟨exitCriteria, -, hx⟩ := bind_eq_ok.1 hx
    cases hx
    rfl

theorem Status.readsId {status : Status} (h : Status.parse raw = .ok status) :
    ReadsId "status" raw status.id := by
  refine readsId_of_parse (fun fields name x hx => ?_) h
  split at hx <;> cases hx
  rfl

/-- A transition keeps its key: its id, or its source if it has none. -/
theorem key_of_transition {t : Transition} (h : Transition.parse raw = .ok t) :
    elementKey Section.transitions.name raw = .ok t.key := by
  unfold Transition.parse at h
  obtain ⟨fields, hfields, h⟩ := bind_eq_ok.1 h
  obtain ⟨value, -, h⟩ := bind_eq_ok.1 h
  rw [elementFields_eq_ok.1 hfields]
  split at h
  · obtain ⟨targets, -, h⟩ := bind_eq_ok.1 h
    split at h
    · cases h
    · obtain ⟨exceptions, -, h⟩ := bind_eq_ok.1 h
      split at h
      · cases h
      · obtain ⟨key, hkey, h⟩ := bind_eq_ok.1 h
        cases h
        exact hkey
  · cases h

theorem Level.readsId {level : Level} (h : Level.parse raw = .ok level) :
    ReadsId "complexity level" raw level.id := by
  refine readsId_of_parse (fun fields name x hx => ?_) h
  obtain ⟨points, -, hx⟩ := bind_eq_ok.1 hx
  obtain ⟨members, -, hx⟩ := bind_eq_ok.1 hx
  obtain ⟨approvals, -, hx⟩ := bind_eq_ok.1 hx
  obtain ⟨skipStages, -, hx⟩ := bind_eq_ok.1 hx
  obtain ⟨requiredStages, -, hx⟩ := bind_eq_ok.1 hx
  cases hx
  rfl

theorem Rule.readsId {rule : Rule} (h : Rule.parse raw = .ok rule) :
    ReadsId "automation rule" raw rule.id := by
  refine readsId_of_parse (fun fields name x hx => ?_) h
  obtain ⟨trigger, -, hx⟩ := bind_eq_ok.1 hx
  obtain ⟨target, -, hx⟩ := bind_eq_ok.1 hx
  obtain ⟨members, -, hx⟩ := bind_eq_ok.1 hx
  obtain ⟨onBreak, -, hx⟩ := bind_eq_ok.1 hx
  obtain ⟨breakOn, -, hx⟩ := bind_eq_ok.1 hx
  dsimp only at hx
  split at hx
  · cases hx
  · obtain ⟨sources, -, hx⟩ := bind_eq_ok.1 hx
    obtain ⟨duration, -, hx⟩ := bind_eq_ok.1 hx
    obtain ⟨members, -, hx⟩ := bind_eq_ok.1 hx
    obtain ⟨actions, -, hx⟩ := bind_eq_ok.1 hx
    cases hx
    rfl

theorem Threshold.readsId {threshold : Threshold} (h : Threshold.parse raw = .ok threshold) :
    ReadsId "metric threshold" raw threshold.id := by
  refine readsId_of_parse (fun fields name x hx => ?_) h
  obtain ⟨word, -, hx⟩ := bind_eq_ok.1 hx
  split at hx
  · cases hx
  · obtain ⟨field, -, hx⟩ := bind_eq_ok.1 hx
    obtain ⟨limit, -, hx⟩ := bind_eq_ok.1 hx
    cases hx
    rfl

end Keys

/-! ## Documents -/

section Documents

variable {source : Source} {document : TeamDocument} {merged : MergedDocument} {version : Int}
  {w : Workflow}

/-- The elements of a section of a resolved document have different keys. -/
theorem distinct_resolve (h : source.resolve document = .ok merged) (sect : Section) :
    ((merged.sections.of sect).map (elementKey sect.name)).Nodup := by
  obtain ⟨documents, -, hissues, rfl⟩ := source.resolve_eq_ok h
  simpa [Resolution.Layers.toMerged] using (Resolution.inherits_merge hissues sect).distinct

/-- Where the elements of a section of a resolved document go by their ids, these are different. -/
theorem distinct_ids {α : Type} {parse : Json → Except Defect α} {id : α → String} {xs : List α}
    (hmerged : source.resolve document = .ok merged) (sect : Section)
    (reads : List.Forall₂ (parse · = .ok ·) (merged.sections.of sect) xs)
    (hkey : ∀ raw x, parse raw = .ok x → elementKey sect.name raw = .ok (id x)) :
    (xs.map id).Nodup := by
  have hkeys : (merged.sections.of sect).map (elementKey sect.name) = (xs.map id).map .ok := by
    rw [List.map_map, ← List.forall₂_eq_eq_eq, List.forall₂_map_left_iff,
      List.forall₂_map_right_iff]
    exact reads.imp hkey
  have hdistinct := distinct_resolve hmerged sect
  rw [hkeys] at hdistinct
  exact hdistinct.of_map _

/-- What is compiled of a resolved document has different ids in every section. -/
theorem compile_distinct (hmerged : source.resolve document = .ok merged)
    (hcompile : merged.compile version = .ok w) : w.Distinct := by
  obtain ⟨d, -, reads, -, -, -, -, -, hstages, hstatuses, htransitions, hlevels, hrules,
    hthresholds, -⟩ := compile_reads hcompile
  exact {
    stages := hstages ▸ distinct_ids hmerged .stages reads.stages
      fun _ _ h => (Stage.readsId h).elementKey_eq _
    statuses := hstatuses ▸ distinct_ids hmerged .statuses reads.statuses
      fun _ _ h => (Status.readsId h).elementKey_eq _
    transitions := htransitions ▸
      distinct_ids hmerged .transitions reads.transitions fun _ _ => key_of_transition
    levels := hlevels ▸ distinct_ids hmerged .complexity reads.levels
      fun _ _ h => (Level.readsId h).elementKey_eq _
    rules := hrules ▸ distinct_ids hmerged .automation reads.rules
      fun _ _ h => (Rule.readsId h).elementKey_eq _
    thresholds := hthresholds ▸ distinct_ids hmerged .metrics reads.thresholds
      fun _ _ h => (Threshold.readsId h).elementKey_eq _ }

/-- What is built of a document has different ids in every section. -/
theorem build_distinct {team : String} (h : source.build team version = .ok w) : w.Distinct := by
  obtain ⟨_, _, -, hmerged, hcompile⟩ := build_eq_ok.1 h
  exact compile_distinct hmerged hcompile

end Documents

/-! ## Looking ids up -/

section Lookups

variable {α : Type} {key : α → String} {xs : List α}

/-- Where keys occur once, what is found under a key is the one element that has it. -/
theorem find?_key_eq_some (distinct : (xs.map key).Nodup) {id : String} {x : α} :
    xs.find? (fun y => key y = id) = some x ↔ x ∈ xs ∧ key x = id := by
  constructor
  · intro h
    exact ⟨List.mem_of_find?_eq_some h, by simpa using List.find?_some h⟩
  · rintro ⟨hx, rfl⟩
    exact find?_of_nodup distinct hx

/-- Where keys occur once, it makes no difference from which end they are looked for. -/
theorem find?_reverse_key_eq_some (distinct : (xs.map key).Nodup) {id : String} {x : α} :
    xs.reverse.find? (fun y => key y = id) = some x ↔ x ∈ xs ∧ key x = id := by
  have hreverse : (xs.reverse.map key).Nodup := by
    rw [List.map_reverse]
    exact List.nodup_reverse.2 distinct
  rw [find?_key_eq_some hreverse, List.mem_reverse]

end Lookups

/-- In an activated workflow the ids of the stages are different, and so are those of the statuses,
the levels, the rules and the thresholds, and the keys of the transitions. A stage, a status, a
level or a rule is what is found under an id exactly if it is one of the workflow and has that id.
-/
theorem ids_occur_once {s t : System} {team : String} {w : Workflow}
    (activated : Run.activate team s = .ok w t) :
    w.Distinct ∧
      (∀ id stage, w.stage? id = some stage ↔ stage ∈ w.stages ∧ stage.id = id) ∧
      (∀ id status, w.status? id = some status ↔ status ∈ w.statuses ∧ status.id = id) ∧
      (∀ id level, w.level? (some id) = some level ↔ level ∈ w.levels ∧ level.id = id) ∧
      ∀ id rule, RuleBook.rule? w.rules id = some rule ↔ rule ∈ w.rules ∧ rule.id = id := by
  have distinct := build_distinct (Run.activate_eq_ok activated).1
  exact ⟨distinct, fun _ _ => find?_key_eq_some distinct.stages,
    fun _ _ => find?_reverse_key_eq_some distinct.statuses,
    fun _ _ => find?_key_eq_some distinct.levels,
    fun _ _ => find?_reverse_key_eq_some distinct.rules⟩

/-- A team that extends the sample team: it replaces a rule, and adds one. -/
def heirDocument : Json := .obj [
  ("team", .obj [("id", .str "heir")]), ("extends", .str "t"),
  ("automation", .arr [onwardRule "A" "C", onwardRule "C" "D"])]

/-- The heir's workflow has the replaced rule once, and it is found as the heir has it. -/
theorem ids_occur_once_heir :
    let s := System.through {} [.putDocument (sampleDocument [onwardRule "A" "B"] []),
      .putDocument heirDocument]
    ∃ w t rule, Run.activate "heir" s = .ok w t ∧ w.Distinct ∧
      w.rules.map (·.id) = ["on-A", "on-C"] ∧ RuleBook.rule? w.rules "on-A" = some rule ∧
      rule.actions.map (fun action => (action.params.getOrNull "to").text?) = [some "C"] := by
  have hrun : (Run.activate "heir").succeeds (System.through {}
      [.putDocument (sampleDocument [onwardRule "A" "B"] []), .putDocument heirDocument]) fun w _ =>
        w.rules.map (·.id) = ["on-A", "on-C"] ∧ ∃ rule ∈ w.rules, rule.id = "on-A" ∧
          rule.actions.map (fun action => (action.params.getOrNull "to").text?) = [some "C"] := by
    decide +kernel
  obtain ⟨w, t, activated, hfacts⟩ := Run.succeeds_iff.1 hrun
  obtain ⟨hids, rule, hrule, hid, hactions⟩ := of_decide_eq_true hfacts
  obtain ⟨distinct, -, -, -, rule?_eq_some⟩ := ids_occur_once activated
  exact ⟨w, t, rule, activated, distinct, hids, (rule?_eq_some _ _).2 ⟨hrule, hid⟩, hactions⟩

end Stageflow
