import Stageflow.Proofs.Decided

/-!
# Compiled workflows

What is known of a workflow because its document was accepted.
-/

namespace Stageflow

/-- A compiled document was read and validated, with no more than warnings. -/
theorem compile_ok {merged : MergedDocument} {version : Int} {w : Workflow}
    (h : merged.compile version = .ok w) :
    ∃ parsed notes verdict initial, ParsedDocument.ofMerged merged = .ok (parsed, notes) ∧
      parsed.validate = .ok verdict ∧ (∀ issue ∈ notes.issues ++ verdict.issues, issue.isWarning) ∧
      verdict.initial = some initial ∧
      w = {
        team := merged.team, version
        name := merged.name, description := merged.description
        sourceVersion := merged.version, initialStatus := initial
        stages := parsed.stages, statuses := parsed.statuses, transitions := parsed.transitions
        levels := parsed.levels, rules := parsed.rules, thresholds := parsed.thresholds
        edges := parsed.edges
        warnings := (notes.issues ++ verdict.issues).map (·.line) } := by
  unfold MergedDocument.compile at h
  obtain ⟨⟨parsed, notes⟩, hparsed, h⟩ := bind_eq_ok.1 h
  obtain ⟨verdict, hverdict, h⟩ := bind_eq_ok.1 h
  rw [mapError_eq_ok] at hparsed hverdict
  dsimp only at h
  split at h
  · rename_i initial hall hinitial
    cases h
    exact ⟨parsed, notes, verdict, initial, hparsed, hverdict, List.all_eq_true.1 hall, hinitial,
      rfl⟩
  · cases h

/-- A compiled workflow bears the team of its document and the version it was compiled to. -/
theorem compile_names {merged : MergedDocument} {version : Int} {w : Workflow}
    (h : merged.compile version = .ok w) : w.team = merged.team ∧ w.version = version := by
  obtain ⟨_, _, _, _, -, -, -, -, rfl⟩ := compile_ok h
  exact ⟨rfl, rfl⟩

/-! ## Stages -/

namespace ParsedDocument

theorem nodup_of_repeated {seen ids : List String} (h : repeated seen ids = []) :
    ids.Nodup ∧ ∀ id ∈ ids, id ∉ seen := by
  induction ids generalizing seen with
  | nil => simp
  | cons id rest ih =>
    unfold repeated at h
    split at h
    · cases h
    · rename_i hid
      obtain ⟨hnodup, hrest⟩ := ih h
      refine ⟨List.nodup_cons.2 ⟨fun hmem => hrest id hmem (by simp), hnodup⟩, ?_⟩
      intro other hother
      obtain rfl | hother := List.mem_cons.1 hother
      · exact hid
      · exact fun hseen => hrest other hother (by simp [hseen])

/-- A document is read section by section. -/
theorem ofMerged_eq_ok {document : MergedDocument} {d : ParsedDocument} {notes : Notes} :
    ofMerged document = .ok (d, notes) ↔
      ∃ badStages badStatuses badTransitions badLevels badRules badThresholds,
        readSection .stage Stage.parse document.sections.stages = .ok (d.stages, badStages) ∧
        readSection .status Status.parse document.sections.statuses =
          .ok (d.statuses, badStatuses) ∧
        readSection .transition Transition.parse document.sections.transitions =
          .ok (d.transitions, badTransitions) ∧
        readSection .level Level.parse document.sections.complexity = .ok (d.levels, badLevels) ∧
        readSection .rule Rule.parse document.sections.automation = .ok (d.rules, badRules) ∧
        readSection .threshold Threshold.parse document.sections.metrics =
          .ok (d.thresholds, badThresholds) ∧
        d.initialStatus = document.initialStatus ∧
        notes = {
          states := badStages ++ badStatuses
          repeatedStages := repeated [] (d.stages.map (·.id))
          repeatedStatuses := repeated [] (d.statuses.map (·.id))
          others := badTransitions ++ badLevels ++ badRules ++ badThresholds } := by
  constructor
  · intro h
    unfold ofMerged at h
    obtain ⟨⟨stages, badStages⟩, hstages, h⟩ := bind_eq_ok.1 h
    obtain ⟨⟨statuses, badStatuses⟩, hstatuses, h⟩ := bind_eq_ok.1 h
    obtain ⟨⟨transitions, badTransitions⟩, htransitions, h⟩ := bind_eq_ok.1 h
    obtain ⟨⟨levels, badLevels⟩, hlevels, h⟩ := bind_eq_ok.1 h
    obtain ⟨⟨rules, badRules⟩, hrules, h⟩ := bind_eq_ok.1 h
    obtain ⟨⟨thresholds, badThresholds⟩, hthresholds, h⟩ := bind_eq_ok.1 h
    cases h
    exact ⟨badStages, badStatuses, badTransitions, badLevels, badRules, badThresholds, hstages,
      hstatuses, htransitions, hlevels, hrules, hthresholds, rfl, rfl⟩
  · obtain ⟨stages, statuses, transitions, levels, rules, thresholds, initialStatus⟩ := d
    rintro ⟨_, _, _, _, _, _, hstages, hstatuses, htransitions, hlevels, hrules, hthresholds,
      hinitial, rfl⟩
    obtain rfl : initialStatus = document.initialStatus := hinitial
    exact bind_eq_ok.2 ⟨_, hstages, bind_eq_ok.2 ⟨_, hstatuses, bind_eq_ok.2 ⟨_, htransitions,
      bind_eq_ok.2 ⟨_, hlevels, bind_eq_ok.2 ⟨_, hrules, bind_eq_ok.2 ⟨_, hthresholds, rfl⟩⟩⟩⟩⟩⟩

theorem repeatedStages_of_ofMerged {merged : MergedDocument} {parsed : ParsedDocument}
    {notes : Notes} (h : ofMerged merged = .ok (parsed, notes)) :
    notes.repeatedStages = repeated [] (parsed.stages.map (·.id)) := by
  obtain ⟨_, _, _, _, _, _, -, -, -, -, -, -, -, rfl⟩ := ofMerged_eq_ok.1 h
  rfl

/-- The verdict over a document puts the findings of all checks together. -/
theorem validate_eq_ok {d : ParsedDocument} {verdict : Verdict} :
    d.validate = .ok verdict ↔
      ∃ initial initialIssues entry levels rules thresholds,
        d.checkInitial = .ok (initial, initialIssues) ∧ d.stages.mapM d.checkEntry = .ok entry ∧
        d.levels.mapM d.checkLevel = .ok levels ∧ d.rules.mapM d.checkRule = .ok rules ∧
        d.thresholds.mapM d.checkThreshold = .ok thresholds ∧
        verdict = {
          initial
          issues :=
            (if d.stages.isEmpty || d.statuses.isEmpty then [.nothingDeclared] else []) ++
              d.checkStatuses ++ d.transitions.flatMap d.checkTransition ++ d.checkTerminal ++
              initialIssues ++ (initial.map d.checkReach).getD [] ++
              entry.flatten ++ levels.flatten ++ rules.flatten ++ thresholds.flatten } := by
  constructor
  · intro h
    unfold validate at h
    obtain ⟨⟨initial, initialIssues⟩, hinitial, h⟩ := bind_eq_ok.1 h
    obtain ⟨entry, hentry, h⟩ := bind_eq_ok.1 h
    obtain ⟨levels, hlevels, h⟩ := bind_eq_ok.1 h
    obtain ⟨rules, hrules, h⟩ := bind_eq_ok.1 h
    obtain ⟨thresholds, hthresholds, h⟩ := bind_eq_ok.1 h
    cases h
    exact ⟨initial, initialIssues, entry, levels, rules, thresholds, hinitial, hentry, hlevels,
      hrules, hthresholds, rfl⟩
  · rintro ⟨_, _, _, _, _, _, hinitial, hentry, hlevels, hrules, hthresholds, rfl⟩
    exact bind_eq_ok.2 ⟨_, hinitial, bind_eq_ok.2 ⟨_, hentry, bind_eq_ok.2 ⟨_, hlevels,
      bind_eq_ok.2 ⟨_, hrules, bind_eq_ok.2 ⟨_, hthresholds, rfl⟩⟩⟩⟩⟩

theorem checkTerminal_subset {d : ParsedDocument} {verdict : Verdict} (h : d.validate = .ok verdict)
    {issue : ValidationIssue} (hissue : issue ∈ d.checkTerminal) : issue ∈ verdict.issues := by
  obtain ⟨_, _, _, _, _, _, -, -, -, -, -, rfl⟩ := validate_eq_ok.1 h
  simp [hissue]

/-- Without issues over terminal moves, the table of moves hands on that a status is terminal. -/
theorem carries_isTerminal {d : ParsedDocument} (h : d.checkTerminal = []) :
    d.edges.Carries fun status => d.isTerminal status := by
  intro source hsource target htarget
  refine Decidable.byContradiction fun hterminal => ?_
  have hknown : source ∈ d.statusIds := by
    unfold isTerminal stageOf? at hsource
    cases hfind : d.statuses.reverse.find? (·.id = source) with
    | none => simp [hfind] at hsource
    | some status =>
      have hmem := List.mem_of_find?_eq_some hfind
      have hid : status.id = source := by simpa using List.find?_some hfind
      exact hid ▸ List.mem_map_of_mem (List.mem_reverse.1 hmem)
  have hissue : ValidationIssue.terminalEdge source target ∈ d.checkTerminal := by
    refine List.mem_flatMap.2 ⟨source, List.mem_filter.2 ⟨hknown, hsource⟩, ?_⟩
    exact List.mem_map_of_mem (List.mem_filter.2 ⟨htarget, by simpa using hterminal⟩)
  rw [h] at hissue
  cases hissue

end ParsedDocument

namespace Workflow

/-- Whether a stage of a workflow is terminal. -/
def isTerminal (w : Workflow) (stage : String) : Bool := (w.stage? stage).any (·.terminal)

variable {w : Workflow}

theorem stageOf_ok {status : String} {stage : Stage} (h : w.stageOf status = .ok stage) :
    ∃ s, w.status? status = some s ∧ w.stage? s.stage = some stage ∧ stage.id = s.stage := by
  unfold stageOf at h
  split at h
  · cases h
  · rename_i s hs
    split at h
    · cases h
    · rename_i found hfound
      cases h
      refine ⟨s, hs, hfound, ?_⟩
      simpa using List.find?_some hfound

theorem isTerminal_of_stageOf {status : String} {stage : Stage} (h : w.stageOf status = .ok stage) :
    w.isTerminal stage.id = stage.terminal := by
  obtain ⟨s, -, hstage, hid⟩ := stageOf_ok h
  simp [isTerminal, hid, hstage]

end Workflow

/-- Where keys occur once, the first element of a key is the only one. -/
theorem find?_of_nodup {α : Type} {key : α → String} {xs : List α} (h : (xs.map key).Nodup) {x : α}
    (hx : x ∈ xs) : xs.find? (fun y => key y = key x) = some x := by
  induction xs with
  | nil => cases hx
  | cons first rest ih =>
    obtain ⟨hfirst, hrest⟩ := List.nodup_cons.1 h
    obtain rfl | hx := List.mem_cons.1 hx
    · simp
    · have hne : key first ≠ key x := fun heq =>
        hfirst (List.mem_map.2 ⟨x, hx, heq.symm⟩)
      rw [List.find?_cons_of_neg (by simpa using hne)]
      exact ih hrest hx

/-- Whether a status lies in a terminal stage of a workflow. -/
def Workflow.Ends (w : Workflow) (status : String) : Prop :=
  ∃ stage, w.stageOf status = .ok stage ∧ stage.terminal

theorem ends_iff {w : Workflow} {d : ParsedDocument} (stages : w.stages = d.stages)
    (statuses : w.statuses = d.statuses) (nodup : (d.stages.map (·.id)).Nodup) (status : String) :
    w.Ends status ↔ d.isTerminal status := by
  constructor
  · rintro ⟨stage, hstage, hterminal⟩
    obtain ⟨s, hs, hfound, hid⟩ := Workflow.stageOf_ok hstage
    have hmem : stage ∈ d.stages := stages ▸ List.mem_of_find?_eq_some hfound
    have hs : d.statuses.reverse.find? (·.id = status) = some s := statuses ▸ hs
    simp only [ParsedDocument.isTerminal, ParsedDocument.stageOf?, hs, Option.map_some,
      Option.any_some]
    exact List.any_eq_true.2 ⟨stage, hmem, by simp [hterminal, hid]⟩
  · intro h
    unfold ParsedDocument.isTerminal ParsedDocument.stageOf? at h
    cases hs : d.statuses.reverse.find? (·.id = status) with
    | none => simp [hs] at h
    | some s =>
      simp only [hs, Option.map_some, Option.any_some] at h
      obtain ⟨stage, hmem, hstage⟩ := List.any_eq_true.1 h
      obtain ⟨hterminal, hid⟩ : stage.terminal = true ∧ stage.id = s.stage := by simpa using hstage
      have hfound := find?_of_nodup nodup hmem
      refine ⟨stage, ?_, hterminal⟩
      simp [Workflow.stageOf, Workflow.status?, Workflow.stage?, stages, statuses, hs, ← hid,
        hfound]

/-- In a compiled workflow the table of moves hands on that a status lies in a terminal stage. -/
theorem compile_carries {merged : MergedDocument} {version : Int} {w : Workflow}
    (h : merged.compile version = .ok w) : w.edges.Carries w.Ends := by
  obtain ⟨parsed, notes, verdict, initial, hparsed, hverdict, hwarnings, -, rfl⟩ := compile_ok h
  have hnodup : (parsed.stages.map (·.id)).Nodup := by
    have hnone : ParsedDocument.repeated [] (parsed.stages.map (·.id)) = [] := by
      rw [← ParsedDocument.repeatedStages_of_ofMerged hparsed, List.eq_nil_iff_forall_not_mem]
      intro id hid
      have := hwarnings (.repeatedStage id) (by simp [ParsedDocument.Notes.issues, hid])
      simp [ValidationIssue.isWarning] at this
    exact (ParsedDocument.nodup_of_repeated hnone).1
  have hclean : parsed.checkTerminal = [] := by
    rw [List.eq_nil_iff_forall_not_mem]
    intro issue hissue
    have := hwarnings issue
      (List.mem_append_right _ (ParsedDocument.checkTerminal_subset hverdict hissue))
    simp only [ParsedDocument.checkTerminal, List.mem_flatMap, List.mem_map] at hissue
    obtain ⟨_, -, _, -, rfl⟩ := hissue
    simp [ValidationIssue.isWarning] at this
  intro source hsource target htarget
  rw [ends_iff rfl rfl hnodup] at hsource ⊢
  exact ParsedDocument.carries_isTerminal hclean source hsource target htarget

end Stageflow
