import Mathlib.Data.List.Forall2
import Mathlib.Data.List.Nodup
import Stageflow.Proofs.Absorption
import Stageflow.Proofs.MoveTable

/-!
# Well-formed documents

What the checks of a document come to. `ParsedDocument.WellFormed` says without any check what a
document has to be like; a merged document is compiled exactly if its elements can all be read and
make such a document.

## Main statements

* `ParsedDocument.validate_passes` — the checks together find no error exactly in a well-formed
  document.
* `compile_iff_wellFormed` — which documents are compiled, and what their table of moves is over.
-/

namespace Stageflow

/-! ## Documents without a flaw -/

/-- The elements of a merged document, all of them read, in order. -/
structure MergedDocument.Reads (document : MergedDocument) (d : ParsedDocument) : Prop where
  stages : List.Forall₂ (Stage.parse · = .ok ·) document.sections.stages d.stages
  statuses : List.Forall₂ (Status.parse · = .ok ·) document.sections.statuses d.statuses
  transitions :
    List.Forall₂ (Transition.parse · = .ok ·) document.sections.transitions d.transitions
  levels : List.Forall₂ (Level.parse · = .ok ·) document.sections.complexity d.levels
  rules : List.Forall₂ (Rule.parse · = .ok ·) document.sections.automation d.rules
  thresholds : List.Forall₂ (Threshold.parse · = .ok ·) document.sections.metrics d.thresholds
  initialStatus : d.initialStatus = document.initialStatus

/-- Whether an action asks for a status as its target, other than that of the next stage. -/
def Action.AsksFor (a : Action) (status : Json) : Prop :=
  (a.type = .autoTransition ∨ a.type = .rollback) ∧ a.params.get? "to" = some status ∧
    status ≠ .null ∧ status ≠ .str nextStage

namespace ParsedDocument

/-- Whether a value is the id of a stage. -/
def IsStage (d : ParsedDocument) (value : Json) : Prop := ∃ id ∈ d.stageIds, value = .str id

/-- Whether a value is the id of a status. -/
def IsStatus (d : ParsedDocument) (value : Json) : Prop := ∃ id ∈ d.statusIds, value = .str id

/-- Whether a status is declared in a stage. -/
def Places (d : ParsedDocument) (status stage : String) : Prop :=
  ∃ s ∈ d.statuses, s.id = status ∧ s.stage = stage

/-- Whether a status is declared in a terminal stage. -/
def Ends (d : ParsedDocument) (status : String) : Prop :=
  ∃ stage ∈ d.stages, stage.terminal ∧ d.Places status stage.id

/-- Whether some declaration leads from one status to another. -/
def Leads (d : ParsedDocument) (source target : String) : Prop :=
  source ∈ d.statusIds ∧ target ∈ d.statusIds ∧
    ∃ t ∈ d.transitions, t.leadsFrom source ∧ target ∈ t.targets

/-- A document in which every reference is to something declared, ids occur once, and terminal
stages are not left. -/
structure WellFormed (d : ParsedDocument) : Prop where
  stages : d.stages ≠ []
  statuses : d.statuses ≠ []
  stageIds : d.stageIds.Nodup
  statusIds : d.statusIds.Nodup
  stageOfStatus : ∀ s ∈ d.statuses, s.stage ∈ d.stageIds
  sources : ∀ t ∈ d.transitions, ¬ t.isWildcard → t.source ∈ d.statusIds
  targets : ∀ t ∈ d.transitions, ∀ target ∈ t.targets, target ∈ d.statusIds
  exceptions : ∀ t ∈ d.transitions, ∀ status ∈ t.exceptions, status ∈ d.statusIds
  terminal : ∀ source target, d.Leads source target → d.Ends source → d.Ends target
  initial : d.initialStatus = .null ∨ d.IsStatus d.initialStatus
  entry : ∀ stage ∈ d.stages, stage.entryStatus = .null ∨
    ∃ status, stage.entryStatus = .str status ∧ d.Places status stage.id
  stagesOfLevels : ∀ level ∈ d.levels, ∀ stage ∈ level.skipStages ++ level.requiredStages,
    stage ∈ d.stageIds
  approvals : ∀ level ∈ d.levels, ∀ approval ∈ level.approvals, d.IsStage approval.stage
  statusesOfRules : ∀ rule ∈ d.rules, ∀ status ∈ rule.sources ++ rule.target.toList,
    status ∈ d.statusIds
  actions : ∀ rule ∈ d.rules, ∀ action ∈ rule.actions ++ rule.onBreak,
    ∀ status, action.AsksFor status → d.IsStatus status
  stagesOfThresholds : ∀ t ∈ d.thresholds, t.stage = .null ∨ d.IsStage t.stage
  durations : ∀ t ∈ d.thresholds, t.metric = .stageDuration → t.stage ≠ .null

/-! ## Reading -/

variable {d : ParsedDocument}

/-- A section is read without a note exactly if every element can be read. -/
theorem readSection_clean {α : Type} {kind : ElementKind} {parse : Json → Except Defect α}
    {raws : List Json} {elements : List α} :
    readSection kind parse raws = .ok (elements, []) ↔
      List.Forall₂ (parse · = .ok ·) raws elements := by
  induction raws generalizing elements with
  | nil => simp [readSection, eq_comm]
  | cons raw rest ih =>
    unfold readSection
    cases hraw : parse raw with
    | ok element =>
      simp only [bind_eq_ok, List.forall₂_cons_left_iff, ← ih, hraw]
      constructor
      · rintro ⟨⟨tail, bad⟩, htail, h⟩
        cases h
        exact ⟨element, tail, rfl, htail, rfl⟩
      · rintro ⟨_, tail, heq, htail, rfl⟩
        cases heq
        exact ⟨(tail, []), htail, rfl⟩
    | error defect =>
      -- a defect is noted, or ends the reading
      constructor
      · intro h
        dsimp only at h
        split at h
        · obtain ⟨_, -, h⟩ := bind_eq_ok.1 h
          obtain ⟨⟨_, _⟩, -, h⟩ := bind_eq_ok.1 h
          cases h
        · cases h
      · intro h
        obtain ⟨_, _, hhead, -⟩ := List.forall₂_cons_left_iff.1 h
        rw [hraw] at hhead
        cases hhead

theorem repeated_eq_nil {seen ids : List String} :
    repeated seen ids = [] ↔ ids.Nodup ∧ ∀ id ∈ ids, id ∉ seen := by
  refine ⟨nodup_of_repeated, ?_⟩
  induction ids generalizing seen with
  | nil => exact fun _ => rfl
  | cons id rest ih =>
    rintro ⟨hnodup, hfresh⟩
    obtain ⟨hid, hrest⟩ := List.nodup_cons.1 hnodup
    rw [repeated, if_neg (hfresh id (by simp))]
    refine ih ⟨hrest, fun other hother hseen => ?_⟩
    obtain rfl | hseen := List.mem_cons.1 hseen
    · exact hid hother
    · exact hfresh other (by simp [hother]) hseen

/-- Nothing is noted exactly if all elements are read and the ids of stages and of statuses each
occur once. -/
theorem ofMerged_clean {document : MergedDocument} :
    (∃ notes, ofMerged document = .ok (d, notes) ∧ notes.issues = []) ↔
      document.Reads d ∧ d.stageIds.Nodup ∧ d.statusIds.Nodup := by
  constructor
  · rintro ⟨notes, h, hclean⟩
    obtain ⟨badStages, badStatuses, badTransitions, badLevels, badRules, badThresholds, hstages,
      hstatuses, htransitions, hlevels, hrules, hthresholds, hinitial, rfl⟩ := ofMerged_eq_ok.1 h
    simp only [Notes.issues, List.append_eq_nil_iff, List.map_eq_nil_iff, repeated_eq_nil] at hclean
    obtain ⟨⟨⟨⟨rfl, rfl⟩, hstageIds, -⟩, hstatusIds, -⟩, ⟨⟨rfl, rfl⟩, rfl⟩, rfl⟩ := hclean
    simp only [readSection_clean] at hstages hstatuses htransitions hlevels hrules hthresholds
    exact ⟨⟨hstages, hstatuses, htransitions, hlevels, hrules, hthresholds, hinitial⟩, hstageIds,
      hstatusIds⟩
  · rintro ⟨reads, hstageIds, hstatusIds⟩
    refine ⟨_, ofMerged_eq_ok.2 ⟨[], [], [], [], [], [], readSection_clean.2 reads.stages,
      readSection_clean.2 reads.statuses, readSection_clean.2 reads.transitions,
      readSection_clean.2 reads.levels, readSection_clean.2 reads.rules,
      readSection_clean.2 reads.thresholds, reads.initialStatus, rfl⟩, ?_⟩
    have hstages := repeated_eq_nil.2 ⟨hstageIds, fun _ _ => List.not_mem_nil⟩
    have hstatuses := repeated_eq_nil.2 ⟨hstatusIds, fun _ _ => List.not_mem_nil⟩
    rw [stageIds] at hstages
    rw [statusIds] at hstatuses
    simp [Notes.issues, hstages, hstatuses]

/-- Whatever is noted while a document is read stops it. -/
theorem Notes.isWarning_of_mem {notes : Notes} {issue : ValidationIssue}
    (h : issue ∈ notes.issues) : issue.isWarning = false := by
  simp only [Notes.issues, List.mem_append, List.mem_map] at h
  obtain ((⟨_, -, rfl⟩ | ⟨_, -, rfl⟩) | ⟨_, -, rfl⟩) | ⟨_, -, rfl⟩ := h <;> rfl

/-! ## References -/

theorem oneOf_eq_true {texts : List String} {value : Json} :
    value.oneOf texts = .ok true ↔ ∃ text ∈ texts, value = .str text := by
  unfold Json.oneOf
  split
  · cases value <;> simp
  · rename_i hunreferable
    simp only [reduceCtorEq, false_iff, not_exists, not_and]
    rintro _ _ rfl
    exact hunreferable (by simp)

/-- Whether a check finds nothing that stops a document. -/
def Passes (check : Except Defect (List ValidationIssue)) : Prop :=
  ∃ issues, check = .ok issues ∧ ∀ issue ∈ issues, issue.isWarning

theorem passes_ok {issues : List ValidationIssue} :
    Passes (.ok issues) ↔ ∀ issue ∈ issues, issue.isWarning := by
  constructor
  · rintro ⟨_, h, hissues⟩
    cases h
    exact hissues
  · exact fun h => ⟨issues, rfl, h⟩

theorem forall_isWarning_map {α : Type} {issue : α → ValidationIssue}
    (error : ∀ x, (issue x).isWarning = false) {xs : List α} :
    (∀ i ∈ xs.map issue, i.isWarning) ↔ xs = [] := by
  simp [error, List.eq_nil_iff_forall_not_mem]

/-- References pass where each of them is known. -/
theorem passes_missing {references : List Json} {known : List String}
    {issue : Json → ValidationIssue} (error : ∀ r, (issue r).isWarning = false) :
    Passes (missing references known issue) ↔
      ∀ r ∈ references, ∃ text ∈ known, r = .str text := by
  have hclean : Passes (missing references known issue) ↔
      references.filterM (fun r => do return !(← r.oneOf known)) = .ok [] := by
    constructor
    · rintro ⟨_, h, hissues⟩
      obtain ⟨unknown, hunknown, h⟩ := bind_eq_ok.1 h
      cases h
      cases unknown with
      | nil => exact hunknown
      | cons r _ => simpa [error r] using hissues (issue r) (by simp)
    · intro h
      exact ⟨[], bind_eq_ok.2 ⟨[], h, rfl⟩, by simp⟩
  rw [hclean, filterM_eq_nil]
  refine forall₂_congr fun r _ => ?_
  rw [← oneOf_eq_true, bind_eq_ok]
  constructor
  · rintro ⟨known, hr, h⟩
    cases known with
    | true => exact hr
    | false => cases h
  · exact fun h => ⟨true, h, rfl⟩

/-- One reference passes where it is known. -/
theorem passes_reference {known : List String} {value : Json} {issue : ValidationIssue}
    (error : issue.isWarning = false) :
    Passes (do return if ← value.oneOf known then [] else [issue]) ↔
      ∃ text ∈ known, value = .str text := by
  rw [← oneOf_eq_true]
  constructor
  · rintro ⟨_, h, hissues⟩
    obtain ⟨found, hfound, h⟩ := bind_eq_ok.1 h
    cases h
    cases found with
    | true => exact hfound
    | false => simp [error] at hissues
  · intro h
    exact ⟨[], bind_eq_ok.2 ⟨true, h, rfl⟩, by simp⟩

/-! ## The checks, one by one -/

/-- Where ids occur once, the stage of a status is the one it is declared in. -/
theorem stageOf?_eq_some (nodup : d.statusIds.Nodup) {status stage : String} :
    d.stageOf? status = some stage ↔ d.Places status stage := by
  have hreverse : (d.statuses.reverse.map (·.id)).Nodup := by
    rw [List.map_reverse]
    exact List.nodup_reverse.2 nodup
  unfold stageOf?
  constructor
  · intro h
    obtain ⟨s, hs, hstage⟩ := Option.map_eq_some_iff.1 h
    refine ⟨s, List.mem_reverse.1 (List.mem_of_find?_eq_some hs), ?_, hstage⟩
    simpa using List.find?_some hs
  · rintro ⟨s, hs, rfl, rfl⟩
    rw [find?_of_nodup hreverse (List.mem_reverse.2 hs)]
    rfl

theorem isTerminal_iff (nodup : d.statusIds.Nodup) {status : String} :
    d.isTerminal status ↔ d.Ends status := by
  simp only [isTerminal, Option.any_eq_true, stageOf?_eq_some nodup, isTerminalStage,
    List.any_eq_true, Bool.and_eq_true, decide_eq_true_eq]
  constructor
  · rintro ⟨_, hplaces, stage, hstage, hterminal, rfl⟩
    exact ⟨stage, hstage, hterminal, hplaces⟩
  · rintro ⟨stage, hstage, hterminal, hplaces⟩
    exact ⟨stage.id, hplaces, stage, hstage, hterminal, rfl⟩

theorem checkStatuses_passes :
    (∀ issue ∈ d.checkStatuses, issue.isWarning) ↔ ∀ s ∈ d.statuses, s.stage ∈ d.stageIds := by
  rw [checkStatuses, forall_isWarning_map fun _ => rfl]
  simp

theorem checkTransition_passes {t : Transition} :
    (∀ issue ∈ d.checkTransition t, issue.isWarning) ↔
      (¬ t.isWildcard → t.source ∈ d.statusIds) ∧ (∀ target ∈ t.targets, target ∈ d.statusIds) ∧
        ∀ status ∈ t.exceptions, status ∈ d.statusIds := by
  rw [checkTransition, List.forall_mem_append, List.forall_mem_append,
    forall_isWarning_map fun _ => rfl, forall_isWarning_map fun _ => rfl, and_assoc]
  refine and_congr ?_ (by simp)
  by_cases hwildcard : t.isWildcard
  · simp [hwildcard]
  · by_cases hsource : t.source ∈ d.statusIds <;>
      simp [hwildcard, hsource, ValidationIssue.isWarning]

theorem checkTerminal_passes (nodup : d.statusIds.Nodup) :
    (∀ issue ∈ d.checkTerminal, issue.isWarning) ↔
      ∀ source target, d.Leads source target → d.Ends source → d.Ends target := by
  have hleads (source target : String) :
      target ∈ d.edges.destinations source ↔ d.Leads source target :=
    Edges.mem_destinations_ofTransitions
  have hsource (source : String) : source ∈ d.statusIds.filter d.isTerminal ↔
      source ∈ d.statusIds ∧ d.Ends source := by
    rw [List.mem_filter, isTerminal_iff nodup]
  have herror (source : String) (targets : List String) :
      (∀ issue ∈ targets.map (ValidationIssue.terminalEdge source), issue.isWarning) ↔
        targets = [] :=
    forall_isWarning_map fun _ => rfl
  simp only [checkTerminal, List.forall_mem_flatMap, herror, List.filter_eq_nil_iff, hleads,
    hsource, Bool.not_eq_true', Bool.not_eq_false, isTerminal_iff nodup]
  constructor
  · exact fun h source target hmove hends => h source ⟨hmove.1, hends⟩ target hmove
  · exact fun h source hends target hmove => h source target hmove hends.2

theorem checkEntry_passes (nodup : d.statusIds.Nodup) {stage : Stage} :
    Passes (d.checkEntry stage) ↔ stage.entryStatus = .null ∨
      ∃ status, stage.entryStatus = .str status ∧ d.Places status stage.id := by
  have hown (status : String) :
      status ∈ d.statusIds.filter (fun status => d.stageOf? status = some stage.id) ↔
        d.Places status stage.id := by
    rw [List.mem_filter, decide_eq_true_eq, stageOf?_eq_some nodup]
    refine and_iff_right_of_imp ?_
    rintro ⟨s, hs, rfl, -⟩
    exact List.mem_map_of_mem hs
  unfold checkEntry
  split
  · rename_i hnull
    simp [passes_ok, hnull]
  · rename_i hvalue
    have hvalue : stage.entryStatus ≠ .null := hvalue
    rw [passes_reference rfl]
    simp only [hown, hvalue, false_or, and_comm]

theorem forall_mem_strings {texts known : List String} :
    (∀ value ∈ texts.map Json.str, ∃ text ∈ known, value = .str text) ↔
      ∀ text ∈ texts, text ∈ known := by
  simp

theorem checkLevel_passes {level : Level} :
    Passes (d.checkLevel level) ↔
      (∀ stage ∈ level.skipStages ++ level.requiredStages, stage ∈ d.stageIds) ∧
        ∀ approval ∈ level.approvals, d.IsStage approval.stage := by
  rw [checkLevel, passes_missing fun _ => rfl, List.forall_mem_append, forall_mem_strings,
    List.forall_mem_map]
  rfl

theorem alike_str_iff {value : Json} {text : String} :
    value.alike (.str text) ↔ value = .str text := by
  cases value <;> simp [Json.alike, Json.place?]

theorem actionTarget?_eq_some {a : Action} {status : Json} :
    actionTarget? a = some status ↔ a.AsksFor status := by
  unfold actionTarget? Action.AsksFor
  split
  case h_3 hauto hrollback =>
    have hauto : a.type ≠ .autoTransition := hauto
    have hrollback : a.type ≠ .rollback := hrollback
    simp [hauto, hrollback]
  all_goals
    rename_i htype
    split
    · rename_i hto
      simp [htype, hto]
    · rename_i hto
      simp only [hto]
      grind
    · rename_i value hnull hto
      have halike : value.alike (.str nextStage) ↔ value = .str nextStage := alike_str_iff
      grind

theorem checkRule_passes {rule : Rule} :
    Passes (d.checkRule rule) ↔
      (∀ status ∈ rule.sources ++ rule.target.toList, status ∈ d.statusIds) ∧
        ∀ action ∈ rule.actions ++ rule.onBreak, ∀ status, action.AsksFor status →
          d.IsStatus status := by
  rw [checkRule, passes_missing fun _ => rfl, List.forall_mem_append, forall_mem_strings]
  refine and_congr Iff.rfl ?_
  simp only [List.mem_filterMap, actionTarget?_eq_some]
  exact ⟨fun h a ha status hasks => h status ⟨a, ha, hasks⟩,
    fun h status ⟨a, ha, hasks⟩ => h a ha status hasks⟩

theorem checkThreshold_passes {t : Threshold} :
    Passes (d.checkThreshold t) ↔
      (t.stage = .null ∨ d.IsStage t.stage) ∧ (t.metric = .stageDuration → t.stage ≠ .null) := by
  unfold checkThreshold
  split
  · rename_i hnull
    by_cases hmetric : t.metric = .stageDuration <;>
      simp [passes_ok, hnull, hmetric, ValidationIssue.isWarning]
  · rename_i hvalue
    have hvalue : t.stage ≠ .null := hvalue
    rw [passes_reference rfl]
    simp [hvalue, IsStage]

/-! ## All checks -/

/-- The initial status that the checks settle on is a status. -/
theorem initial_mem {initial : Option String} {issues : List ValidationIssue}
    (h : d.checkInitial = .ok (initial, issues)) : ∀ status ∈ initial, status ∈ d.statusIds := by
  unfold checkInitial at h
  split at h
  · cases h
    exact fun status => List.mem_of_mem_head?
  · rename_i s _
    by_cases hs : s ∈ d.statusIds
    · simp only [List.contains_eq_mem, hs, decide_true, if_true] at h
      cases h
      simpa using hs
    · simp only [List.contains_eq_mem, hs, decide_false] at h
      cases h
      exact fun status => List.mem_of_mem_head?
  · split at h
    · cases h
      exact fun status => List.mem_of_mem_head?
    · cases h

/-- The checks settle on an initial status without an error where there is a status, and the given
one is a status. -/
theorem checkInitial_passes :
    (∃ initial issues, d.checkInitial = .ok (initial, issues) ∧ initial.isSome ∧
        ∀ issue ∈ issues, issue.isWarning) ↔
      d.statuses ≠ [] ∧ (d.initialStatus = .null ∨ d.IsStatus d.initialStatus) := by
  have hhead : d.statusIds.head?.isSome ↔ d.statuses ≠ [] := by
    simp [statusIds, Option.isSome_iff_ne_none]
  constructor
  · rintro ⟨initial, issues, h, hsome, hissues⟩
    refine ⟨?_, ?_⟩
    · obtain ⟨status, rfl⟩ := Option.isSome_iff_exists.1 hsome
      intro hnil
      simpa [statusIds, hnil] using initial_mem h status rfl
    · unfold checkInitial at h
      split at h
      · exact .inl ‹_›
      · rename_i s hs
        by_cases hmem : s ∈ d.statusIds
        · exact .inr ⟨s, hmem, hs⟩
        · simp only [List.contains_eq_mem, hmem, decide_false] at h
          cases h
          simp [ValidationIssue.isWarning] at hissues
      · split at h
        · cases h
          simp [ValidationIssue.isWarning] at hissues
        · cases h
  · rintro ⟨hstatuses, hinitial⟩
    unfold checkInitial
    obtain hnull | ⟨s, hs, hinitial⟩ := hinitial
    · rw [hnull]
      exact ⟨_, [], rfl, hhead.2 hstatuses, by simp⟩
    · rw [hinitial]
      simp only [List.contains_eq_mem, hs, decide_true, if_true]
      exact ⟨some s, [], rfl, rfl, by simp⟩

/-- What is said about the reach of the initial status only advises. -/
theorem checkReach_passes (initial : String) : ∀ issue ∈ d.checkReach initial, issue.isWarning := by
  rw [checkReach, List.forall_mem_append, List.forall_mem_map]
  refine ⟨?_, fun _ _ => rfl⟩
  split <;> simp [ValidationIssue.isWarning]

/-- A check of each element passes where the check of every one does. -/
theorem passes_each {α : Type} {check : α → Except Defect (List ValidationIssue)} {xs : List α} :
    (∃ issues, xs.mapM check = .ok issues ∧ ∀ issue ∈ issues.flatten, issue.isWarning) ↔
      ∀ x ∈ xs, Passes (check x) := by
  refine Iff.trans (exists_congr fun _ => and_congr_right fun _ => ?_) mapM_eq_ok
  exact List.forall_mem_flatten

theorem nothingDeclared_passes :
    (∀ issue ∈ if d.stages.isEmpty || d.statuses.isEmpty then
        [ValidationIssue.nothingDeclared] else [], issue.isWarning) ↔
      d.stages ≠ [] ∧ d.statuses ≠ [] := by
  cases hstages : d.stages <;> cases hstatuses : d.statuses <;> simp [ValidationIssue.isWarning]

/-- The checks find no error, and settle on an initial status, exactly in a well-formed document. -/
theorem validate_passes :
    (d.stageIds.Nodup ∧ d.statusIds.Nodup ∧ ∃ verdict, d.validate = .ok verdict ∧
        verdict.initial.isSome ∧ ∀ issue ∈ verdict.issues, issue.isWarning) ↔ d.WellFormed := by
  constructor
  · rintro ⟨hstageIds, hstatusIds, verdict, h, hinitial, hissues⟩
    obtain ⟨initial, initialIssues, entry, levels, rules, thresholds, hcheck, hentry, hlevels,
      hrules, hthresholds, rfl⟩ := validate_eq_ok.1 h
    simp only [List.forall_mem_append] at hissues
    obtain ⟨⟨⟨⟨⟨⟨⟨⟨⟨hnothing, hstatuses⟩, htransitions⟩, hterminal⟩, hknown⟩, -⟩, entryPass⟩,
      levelsPass⟩, rulesPass⟩, thresholdsPass⟩ := hissues
    have htransitions (t) (ht : t ∈ d.transitions) :=
      checkTransition_passes.1 (List.forall_mem_flatMap.1 htransitions t ht)
    have hlevels (level) (hlevel : level ∈ d.levels) :=
      checkLevel_passes.1 (passes_each.1 ⟨levels, hlevels, levelsPass⟩ level hlevel)
    have hrules (rule) (hrule : rule ∈ d.rules) :=
      checkRule_passes.1 (passes_each.1 ⟨rules, hrules, rulesPass⟩ rule hrule)
    have hthresholds (t) (ht : t ∈ d.thresholds) :=
      checkThreshold_passes.1 (passes_each.1 ⟨thresholds, hthresholds, thresholdsPass⟩ t ht)
    exact {
      stages := (nothingDeclared_passes.1 hnothing).1
      statuses := (nothingDeclared_passes.1 hnothing).2
      stageIds := hstageIds
      statusIds := hstatusIds
      stageOfStatus := checkStatuses_passes.1 hstatuses
      sources := fun t ht => (htransitions t ht).1
      targets := fun t ht => (htransitions t ht).2.1
      exceptions := fun t ht => (htransitions t ht).2.2
      terminal := (checkTerminal_passes hstatusIds).1 hterminal
      initial := (checkInitial_passes.1 ⟨initial, initialIssues, hcheck, hinitial, hknown⟩).2
      entry := fun stage hstage => (checkEntry_passes hstatusIds).1
        (passes_each.1 ⟨entry, hentry, entryPass⟩ stage hstage)
      stagesOfLevels := fun level hlevel => (hlevels level hlevel).1
      approvals := fun level hlevel => (hlevels level hlevel).2
      statusesOfRules := fun rule hrule => (hrules rule hrule).1
      actions := fun rule hrule => (hrules rule hrule).2
      stagesOfThresholds := fun t ht => (hthresholds t ht).1
      durations := fun t ht => (hthresholds t ht).2 }
  · intro h
    obtain ⟨initial, initialIssues, hcheck, hinitial, hknown⟩ :=
      checkInitial_passes.2 ⟨h.statuses, h.initial⟩
    obtain ⟨entry, hentry, entryPass⟩ := passes_each.2 fun stage hstage =>
      (checkEntry_passes h.statusIds).2 (h.entry stage hstage)
    obtain ⟨levels, hlevels, levelsPass⟩ := passes_each.2 fun level hlevel =>
      checkLevel_passes.2 ⟨h.stagesOfLevels level hlevel, h.approvals level hlevel⟩
    obtain ⟨rules, hrules, rulesPass⟩ := passes_each.2 fun rule hrule =>
      checkRule_passes.2 ⟨h.statusesOfRules rule hrule, h.actions rule hrule⟩
    obtain ⟨thresholds, hthresholds, thresholdsPass⟩ := passes_each.2 fun t ht =>
      checkThreshold_passes.2 ⟨h.stagesOfThresholds t ht, h.durations t ht⟩
    have hreach : ∀ issue ∈ (initial.map d.checkReach).getD [], issue.isWarning := by
      obtain ⟨status, rfl⟩ := Option.isSome_iff_exists.1 hinitial
      exact checkReach_passes status
    have hvalidate : d.validate = .ok ⟨_, initial⟩ := validate_eq_ok.2
      ⟨initial, initialIssues, entry, levels, rules, thresholds, hcheck, hentry, hlevels, hrules,
        hthresholds, rfl⟩
    refine ⟨h.stageIds, h.statusIds, _, hvalidate, hinitial, ?_⟩
    simp only [List.forall_mem_append]
    refine ⟨⟨⟨⟨⟨⟨⟨⟨⟨?_, ?_⟩, ?_⟩, ?_⟩, hknown⟩, hreach⟩, entryPass⟩, levelsPass⟩, rulesPass⟩,
      thresholdsPass⟩
    · exact nothingDeclared_passes.2 ⟨h.stages, h.statuses⟩
    · exact checkStatuses_passes.2 h.stageOfStatus
    · exact List.forall_mem_flatMap.2 fun t ht =>
        checkTransition_passes.2 ⟨h.sources t ht, h.targets t ht, h.exceptions t ht⟩
    · exact (checkTerminal_passes h.statusIds).2 h.terminal

end ParsedDocument

/-! ## Compiled documents -/

/-- What is compiled was read without a note and was validated, and bears the elements read. -/
theorem compile_reads {document : MergedDocument} {version : Int} {w : Workflow}
    (h : document.compile version = .ok w) :
    ∃ d verdict, document.Reads d ∧ d.stageIds.Nodup ∧ d.statusIds.Nodup ∧
      d.validate = .ok verdict ∧ (∀ issue ∈ verdict.issues, issue.isWarning) ∧
      verdict.initial = some w.initialStatus ∧ w.stages = d.stages ∧ w.statuses = d.statuses ∧
      w.transitions = d.transitions ∧ w.levels = d.levels ∧ w.rules = d.rules ∧
      w.thresholds = d.thresholds ∧ w.edges = d.edges := by
  obtain ⟨d, notes, verdict, initial, hparsed, hverdict, hissues, hinitial, rfl⟩ := compile_ok h
  obtain ⟨hnotes, hissues⟩ := List.forall_mem_append.1 hissues
  have hclean : notes.issues = [] := by
    rw [List.eq_nil_iff_forall_not_mem]
    intro issue hissue
    have herror := ParsedDocument.Notes.isWarning_of_mem hissue
    exact Bool.noConfusion ((hnotes issue hissue).symm.trans herror)
  obtain ⟨reads, hstageIds, hstatusIds⟩ := ParsedDocument.ofMerged_clean.1 ⟨notes, hparsed, hclean⟩
  exact ⟨d, verdict, reads, hstageIds, hstatusIds, hverdict, hissues, hinitial, rfl, rfl, rfl, rfl,
    rfl, rfl, rfl⟩

/-- What is compiled was read from a well-formed document. -/
theorem compile_wellFormed {document : MergedDocument} {version : Int} {w : Workflow}
    (h : document.compile version = .ok w) :
    ∃ d, document.Reads d ∧ d.WellFormed ∧ w.statuses = d.statuses ∧ w.edges = d.edges ∧
      w.initialStatus ∈ d.statusIds ∧ w.stages = d.stages ∧ w.rules = d.rules ∧
      w.thresholds = d.thresholds := by
  obtain ⟨d, verdict, reads, hstageIds, hstatusIds, hverdict, hissues, hinitial, hstages, hstatuses,
    -, -, hrules, hthresholds, hedges⟩ := compile_reads h
  have wellFormed := ParsedDocument.validate_passes.1
    ⟨hstageIds, hstatusIds, verdict, hverdict, by simp [hinitial], hissues⟩
  refine ⟨d, reads, wellFormed, hstatuses, hedges, ?_, hstages, hrules, hthresholds⟩
  obtain ⟨_, _, _, _, _, _, hsettled, -, -, -, -, rfl⟩ :=
    ParsedDocument.validate_eq_ok.1 hverdict
  exact ParsedDocument.initial_mem hsettled _ hinitial

/-- A well-formed document is compiled. -/
theorem compile_of_wellFormed {document : MergedDocument} {d : ParsedDocument}
    (reads : document.Reads d) (wellFormed : d.WellFormed) (version : Int) :
    ∃ w, document.compile version = .ok w := by
  obtain ⟨hstageIds, hstatusIds, verdict, hverdict, hinitial, hissues⟩ :=
    ParsedDocument.validate_passes.2 wellFormed
  obtain ⟨notes, hparsed, hclean⟩ := ParsedDocument.ofMerged_clean.2 ⟨reads, hstageIds, hstatusIds⟩
  obtain ⟨initial, hinitial⟩ := Option.isSome_iff_exists.1 hinitial
  have hall : (notes.issues ++ verdict.issues).all (·.isWarning) = true := by
    rw [hclean]
    exact List.all_eq_true.2 hissues
  simp [MergedDocument.compile, hparsed, hverdict, hall, hinitial, Except.mapError, bind,
    Except.bind, pure, Except.pure]

/-- A merged document is compiled exactly if every element can be read and they make a well-formed
document. The table of moves then has one entry for each status and leads to statuses only, and the
initial status is one of them. -/
theorem compile_iff_wellFormed (document : MergedDocument) (version : Int) :
    ((∃ w, document.compile version = .ok w) ↔ ∃ d, document.Reads d ∧ d.WellFormed) ∧
      ∀ w, document.compile version = .ok w →
        w.edges.keys = w.statuses.map (·.id) ∧
          (∀ source, ∀ target ∈ w.destinations source, target ∈ w.statuses.map (·.id)) ∧
          w.initialStatus ∈ w.statuses.map (·.id) := by
  refine ⟨⟨?_, ?_⟩, ?_⟩
  · rintro ⟨w, h⟩
    obtain ⟨d, reads, wellFormed, -⟩ := compile_wellFormed h
    exact ⟨d, reads, wellFormed⟩
  · rintro ⟨d, reads, wellFormed⟩
    exact compile_of_wellFormed reads wellFormed version
  · intro w h
    obtain ⟨d, -, wellFormed, hstatuses, hedges, hinitial, -⟩ := compile_wellFormed h
    have hids : w.statuses.map (·.id) = d.statusIds := by rw [hstatuses]; rfl
    refine ⟨?_, fun source target htarget => ?_, hids ▸ hinitial⟩
    · rw [hids, hedges, ParsedDocument.edges, Edges.keys_ofTransitions]
      exact eraseDups_of_nodup wellFormed.statusIds
    · rw [Workflow.destinations, hedges] at htarget
      exact hids ▸ (Edges.mem_destinations_ofTransitions.1 htarget).2.1

/-- The sample document is well-formed, and its table of moves is over its three statuses. -/
theorem compile_iff_wellFormed_sample :
    (∃ d, sampleMerged.Reads d ∧ d.WellFormed) ∧
      ∃ w, sampleMerged.compile 1 = .ok w ∧ w.edges.keys = w.statuses.map (·.id) := by
  have hcompiled : (sampleMerged.compile 1).toOption.isSome = true := by decide +kernel
  obtain ⟨hiff, hover⟩ := compile_iff_wellFormed sampleMerged 1
  cases hw : sampleMerged.compile 1 with
  | error fault => simp [hw, Except.toOption] at hcompiled
  | ok w => exact ⟨hiff.1 ⟨w, hw⟩, w, rfl, (hover w hw).1⟩

end Stageflow
