import Stageflow.Proofs.Absorption
import Stageflow.Proofs.Activations
import Stageflow.Proofs.Readings
import Stageflow.Proofs.Searches

/-!
# Warnings

What the checks say about the reach of the initial status is exact: a status is warned about exactly
if no chain of moves leads to it, and the initial one exactly if a move of another status leads
there. Nothing else is a warning, and warnings keep no document from being compiled. All that the
checks need for it is that they come to an end, and they do exactly if every reference can be looked
up and written.

## Main statements

* `ParsedDocument.keyed_iff` — when the checks come to an end.
* `ParsedDocument.mem_issues_of_isWarning` — where warnings come from.
* `validate_warns` — what is warned about, and that it is no obstacle.
-/

namespace Stageflow

namespace ParsedDocument

variable {d : ParsedDocument} {verdict : Verdict} {issue : ValidationIssue}

/-! ## References -/

/-- Whether every reference of a document can be looked up and written: none is an array, an object,
or an integer of too many digits. -/
structure Keyed (d : ParsedDocument) : Prop where
  initial : d.initialStatus.isReference
  entry : ∀ stage ∈ d.stages, stage.entryStatus.isReference
  approvals : ∀ level ∈ d.levels, ∀ a ∈ level.approvals, a.stage.isReference
  targets : ∀ rule ∈ d.rules, ∀ a ∈ rule.actions ++ rule.onBreak, ∀ status, a.AsksFor status →
    status.isReference
  stages : ∀ t ∈ d.thresholds, t.stage.isReference

/-- The checks come to an end exactly if every reference can be looked up and written. -/
theorem keyed_iff : d.Keyed ↔ ∃ verdict, d.validate = .ok verdict := by
  rw [validate_ends]
  exact ⟨fun ⟨initial, entry, approvals, targets, stages⟩ =>
      ⟨initial, entry, approvals, targets, stages⟩,
    fun ⟨initial, entry, approvals, targets, stages⟩ =>
      ⟨initial, entry, approvals, targets, stages⟩⟩

/-! ## Where warnings come from -/

/-- Whether issues are errors. -/
def Errors (issues : List ValidationIssue) : Prop := ∀ issue ∈ issues, issue.isWarning = false

theorem errors_append {first second : List ValidationIssue} :
    Errors (first ++ second) ↔ Errors first ∧ Errors second := List.forall_mem_append

theorem errors_map {α : Type} {about : α → ValidationIssue} (xs : List α)
    (herror : ∀ x, (about x).isWarning = false) : Errors (xs.map about) :=
  List.forall_mem_map.2 fun x _ => herror x

theorem errors_missing {references : List Json} {known : List String}
    {issues : List ValidationIssue} {about : Json → ValidationIssue}
    (h : missing references known about = .ok issues)
    (herror : ∀ r, (about r).isWarning = false) : Errors issues := by
  obtain ⟨unknown, -, h⟩ := bind_eq_ok.1 h
  cases h
  exact errors_map unknown herror

/-- A check of each element finds errors where the check of every one does. -/
theorem errors_each {α : Type} {check : α → Except Defect (List ValidationIssue)} {xs : List α}
    {found : List (List ValidationIssue)} (h : xs.mapM check = .ok found)
    (herrors : ∀ x issues, check x = .ok issues → Errors issues) : Errors found.flatten := by
  intro issue hissue
  obtain ⟨issues, hissues, hissue⟩ := List.mem_flatten.1 hissue
  obtain ⟨x, -, hx⟩ := (mem_of_mapM h).1 hissues
  exact herrors x issues hx issue hissue

theorem errors_checkInitial {initial : Option String} {issues : List ValidationIssue}
    (h : d.checkInitial = .ok (initial, issues)) : Errors issues := by
  unfold checkInitial at h
  split at h
  · cases h
    simp [Errors]
  · split at h <;> cases h <;> simp [Errors, ValidationIssue.isWarning]
  · split at h <;> cases h
    simp [Errors, ValidationIssue.isWarning]

theorem errors_checkEntry {stage : Stage} {issues : List ValidationIssue}
    (h : d.checkEntry stage = .ok issues) : Errors issues := by
  unfold checkEntry at h
  split at h
  · cases h
    simp [Errors]
  · obtain ⟨known, -, h⟩ := bind_eq_ok.1 h
    cases h
    split <;> simp [Errors, ValidationIssue.isWarning]

theorem errors_checkThreshold {t : Threshold} {issues : List ValidationIssue}
    (h : d.checkThreshold t = .ok issues) : Errors issues := by
  unfold checkThreshold at h
  split at h
  · cases h
    split <;> simp [Errors, ValidationIssue.isWarning]
  · obtain ⟨known, -, h⟩ := bind_eq_ok.1 h
    cases h
    split <;> simp [Errors, ValidationIssue.isWarning]

/-- The checks of the parts of a document find errors only. -/
theorem errors_parts : Errors ((if d.stages.isEmpty || d.statuses.isEmpty then
    [.nothingDeclared] else []) ++ d.checkStatuses ++ d.transitions.flatMap d.checkTransition ++
      d.checkTerminal) := by
  simp only [errors_append]
  refine ⟨⟨⟨?_, ?_⟩, ?_⟩, ?_⟩
  · split <;> simp [Errors, ValidationIssue.isWarning]
  · exact errors_map _ fun _ => rfl
  · refine List.forall_mem_flatMap.2 fun t _ => errors_append.2 ⟨errors_append.2 ⟨?_, ?_⟩, ?_⟩
    · split <;> simp [Errors, ValidationIssue.isWarning]
    · exact errors_map _ fun _ => rfl
    · exact errors_map _ fun _ => rfl
  · exact List.forall_mem_flatMap.2 fun s _ => errors_map _ fun _ => rfl

/-- Of the checks of a document, only that of the reach of the initial status warns. -/
theorem mem_issues_of_isWarning (h : d.validate = .ok verdict) (warns : issue.isWarning) :
    issue ∈ verdict.issues ↔
      ∃ initial, verdict.initial = some initial ∧ issue ∈ d.checkReach initial := by
  obtain ⟨initial, initialIssues, entry, levels, rules, thresholds, hinitial, hentry, hlevels,
    hrules, hthresholds, rfl⟩ := validate_eq_ok.1 h
  have hnot {issues : List ValidationIssue} (herrors : Errors issues) : issue ∉ issues :=
    fun hissue => by simp [herrors issue hissue] at warns
  have hparts := hnot (errors_parts (d := d))
  have hinitial := hnot (errors_checkInitial hinitial)
  have hentry := hnot (errors_each hentry fun _ _ => errors_checkEntry)
  have hlevels := hnot (errors_each hlevels fun level _ hlevel =>
    errors_missing hlevel fun _ => rfl)
  have hrules := hnot (errors_each hrules fun rule _ hrule =>
    errors_missing hrule fun _ => rfl)
  have hthresholds := hnot (errors_each hthresholds fun _ _ => errors_checkThreshold)
  dsimp only
  rw [List.mem_append, List.mem_append, List.mem_append, List.mem_append, List.mem_append,
    List.mem_append]
  simp only [hparts, hinitial, hentry, hlevels, hrules, hthresholds, false_or, or_false]
  cases initial <;> simp

/-! ## The initial status -/

/-- Whether a document designates a status as the initial one: the declared one if that is a status,
else the first status. -/
def Designates (d : ParsedDocument) (status : String) : Prop :=
  (d.initialStatus = .str status ∧ status ∈ d.statusIds) ∨
    (¬ d.IsStatus d.initialStatus ∧ d.statusIds.head? = some status)

theorem initial_eq_some {initial : Option String} {issues : List ValidationIssue}
    (h : d.checkInitial = .ok (initial, issues)) {status : String} :
    initial = some status ↔ d.Designates status := by
  unfold checkInitial at h
  unfold Designates IsStatus
  split at h
  · rename_i hnull
    cases h
    simp [hnull]
  · rename_i declared hdeclared
    by_cases hmem : declared ∈ d.statusIds
    · simp only [List.contains_eq_mem, hmem, decide_true, if_true] at h
      cases h
      simp only [hdeclared, Option.some.injEq, Json.str.injEq]
      grind
    · simp only [List.contains_eq_mem, hmem, decide_false] at h
      cases h
      simp only [hdeclared, Json.str.injEq]
      grind
  · rename_i value hnull hstr
    split at h <;> cases h
    have hnone (text : String) : d.initialStatus ≠ .str text := hstr text
    simp [hnone]

/-- In the table of a document, some other status leads to one exactly if a move does. -/
theorem hasEntry_edges {status : String} :
    d.edges.hasEntry status ↔ ∃ source ≠ status, d.edges.Steps source status := by
  have hkeys : d.edges.keys.Nodup := by
    rw [edges, Edges.keys_ofTransitions]
    exact nodup_eraseDups _
  simp only [Edges.hasEntry, List.any_eq_true, Bool.and_eq_true, decide_eq_true_eq,
    List.contains_eq_mem, Edges.Steps, Edges.destinations]
  constructor
  · rintro ⟨p, hp, hne, hmem⟩
    exact ⟨p.1, hne, by simpa [Table.get?_of_mem hkeys hp] using hmem⟩
  · rintro ⟨source, hne, hmem⟩
    cases hget : d.edges.get? source with
    | none => simp [hget] at hmem
    | some targets => exact ⟨_, Table.mem_of_get? hget, hne, by simpa [hget] using hmem⟩

theorem unreachable_mem_checkReach {status initial start : String} :
    .unreachable status initial ∈ d.checkReach start ↔
      initial = start ∧ status ∈ d.statusIds ∧
        ¬ Relation.ReflTransGen d.edges.Steps initial status := by
  rw [checkReach, List.mem_append]
  have hnot : .unreachable status initial ∉
      if d.edges.hasEntry start then [ValidationIssue.initialHasEntry start] else [] := by
    split <;> simp
  simp only [hnot, false_or, List.mem_map, List.mem_filter, ValidationIssue.unreachable.injEq,
    ← Edges.mem_reachable]
  constructor
  · rintro ⟨_, ⟨hmem, hreach⟩, rfl, rfl⟩
    exact ⟨rfl, hmem, by simpa using hreach⟩
  · rintro ⟨rfl, hmem, hreach⟩
    exact ⟨status, ⟨hmem, by simpa using hreach⟩, rfl, rfl⟩

theorem initialHasEntry_mem_checkReach {initial start : String} :
    .initialHasEntry initial ∈ d.checkReach start ↔
      initial = start ∧ ∃ source ≠ initial, d.edges.Steps source initial := by
  rw [← hasEntry_edges, checkReach, List.mem_append]
  constructor
  · rintro (hmem | hmem)
    · split at hmem
      · obtain rfl : initial = start := by simpa using hmem
        exact ⟨rfl, ‹_›⟩
      · cases hmem
    · simp at hmem
  · rintro ⟨rfl, hentry⟩
    exact .inl (by simp [hentry])

end ParsedDocument

/-! ## Warnings are no obstacle -/

/-- Whether an issue is about the reach of an initial status. -/
def ValidationIssue.OfReach (issue : ValidationIssue) : Prop :=
  (∃ initial, issue = .initialHasEntry initial) ∨
    ∃ status initial, issue = .unreachable status initial

theorem ValidationIssue.isWarning_iff {issue : ValidationIssue} :
    issue.isWarning ↔ issue.OfReach := by
  cases issue <;> simp [isWarning, OfReach]

/-- A document that was read and checked is compiled exactly if there are only warnings. -/
theorem compile_iff_isWarning {document : MergedDocument} {d : ParsedDocument}
    {notes : ParsedDocument.Notes} {verdict : ParsedDocument.Verdict}
    (hread : ParsedDocument.ofMerged document = .ok (d, notes)) (h : d.validate = .ok verdict)
    (version : Int) : (∃ w, document.compile version = .ok w) ↔
      ∀ issue ∈ notes.issues ++ verdict.issues, issue.isWarning := by
  have hfound : document.issues = .ok (notes.issues ++ verdict.issues) :=
    bind_eq_ok.2 ⟨_, hread, bind_eq_ok.2 ⟨_, h, rfl⟩⟩
  have hcompile := issues_of_compile document version
  split at hcompile
  · obtain ⟨issues, hissues, hwarnings, -⟩ := hcompile
    obtain rfl := Except.ok.inj (hfound.symm.trans hissues)
    exact iff_of_true ⟨_, ‹_›⟩ hwarnings
  · obtain ⟨hissues, issue, hmem, herror⟩ := hcompile
    obtain rfl := Except.ok.inj (hfound.symm.trans hissues)
    refine iff_of_false ?_ fun hwarnings => herror (hwarnings issue hmem)
    simp [*]
  · rw [hfound] at hcompile
    cases hcompile

/-- Where every reference can be looked up and written, the checks come to an end, and what they say
about the reach of the designated status is exact: a status is unreachable exactly if no chain of
moves leads to it from there, and the designated one is entered exactly if another status has a move
to it. The search with a queue comes to an end on every table, and finds the same. Such issues are
the only warnings, and a document is compiled exactly if there are no others. -/
theorem validate_warns {d : ParsedDocument} (keyed : d.Keyed) :
    ∃ verdict, d.validate = .ok verdict ∧
      (∀ initial, verdict.initial = some initial ↔ d.Designates initial) ∧
      (∀ status initial, .unreachable status initial ∈ verdict.issues ↔
        d.Designates initial ∧ status ∈ d.statusIds ∧
          ¬ Relation.ReflTransGen d.edges.Steps initial status) ∧
      (∀ initial, .initialHasEntry initial ∈ verdict.issues ↔
        d.Designates initial ∧ ∃ source ≠ initial, d.edges.Steps source initial) ∧
      (∀ (edges : Edges) start, ∃ found, Search.Ends edges { queue := [start] } found ∧
        ∀ status, status ∈ found ↔ status ∈ edges.reachable start) ∧
      (∀ issue ∈ verdict.issues, issue.severity = "warning" ↔ issue.OfReach) ∧
      ∀ document notes version, ParsedDocument.ofMerged document = .ok (d, notes) →
        ((∃ w, document.compile version = .ok w) ↔
          ∀ issue ∈ notes.issues ++ verdict.issues, issue.OfReach) := by
  obtain ⟨verdict, h⟩ := ParsedDocument.keyed_iff.1 keyed
  have hinitial (status : String) : verdict.initial = some status ↔ d.Designates status := by
    obtain ⟨_, _, _, _, _, _, hinitial, -, -, -, -, rfl⟩ := ParsedDocument.validate_eq_ok.1 h
    exact ParsedDocument.initial_eq_some hinitial
  refine ⟨verdict, h, hinitial, fun status initial => ?_, fun initial => ?_,
    Search.exists_ends_reachable, fun issue _ => ?_, fun document notes version hread => ?_⟩
  · rw [ParsedDocument.mem_issues_of_isWarning h rfl]
    simp only [hinitial, ParsedDocument.unreachable_mem_checkReach]
    exact ⟨fun ⟨_, hstart, rfl, hreach⟩ => ⟨hstart, hreach⟩,
      fun ⟨hstart, hreach⟩ => ⟨_, hstart, rfl, hreach⟩⟩
  · rw [ParsedDocument.mem_issues_of_isWarning h rfl]
    simp only [hinitial, ParsedDocument.initialHasEntry_mem_checkReach]
    exact ⟨fun ⟨_, hstart, rfl, hentry⟩ => ⟨hstart, hentry⟩,
      fun ⟨hstart, hentry⟩ => ⟨_, hstart, rfl, hentry⟩⟩
  · rw [← ValidationIssue.isWarning_iff, ValidationIssue.severity]
    cases issue.isWarning <;> simp
  · rw [compile_iff_isWarning hread h]
    simp only [ValidationIssue.isWarning_iff]

/-- A document with a status that no move leads to, and a rule that moves items to a target. -/
def strandedDocument (target : Json) : ParsedDocument where
  stages := [⟨"only", .str "only", .str "", true, false, none, [], [], .soft, .null⟩]
  statuses := ["A", "B"].map fun id => ⟨id, "only", .str id, .str "", .null⟩
  transitions := []
  levels := []
  rules := [⟨"r", "transition", [], none, none, [], [⟨.autoTransition, [("to", target)]⟩], []⟩]
  thresholds := []
  initialStatus := .null

/-- The document as it is written. -/
def strandedMerged (target : Json) : MergedDocument :=
  { sampleMerged with
    sections := {
      stages := [.obj [("id", .str "only")]]
      statuses := ["A", "B"].map fun id => .obj [("id", .str id), ("stage_id", .str "only")]
      transitions := []
      complexity := []
      automation := [.obj [("id", .str "r"),
        ("actions", .arr [.obj [("type", .str "auto_transition"), ("to", target)]])]]
      metrics := [] } }

theorem ofMerged_stranded (target : Json) :
    ParsedDocument.ofMerged (strandedMerged target) =
      .ok (strandedDocument target, ⟨[], [], [], []⟩) := by
  rfl

theorem designates_stranded (target : Json) : (strandedDocument target).Designates "A" := by
  refine .inr ⟨?_, rfl⟩
  rintro ⟨status, -, h⟩
  cases h

theorem not_steps_stranded (target : Json) (source status : String) :
    ¬ (strandedDocument target).edges.Steps source status := by
  have hedges : (strandedDocument target).edges = [("A", []), ("B", [])] := rfl
  rw [Edges.Steps, Edges.destinations, hedges, Table.get?, Table.get?]
  split
  · simp
  · split <;> simp

theorem not_reaches_stranded (target : Json) :
    ¬ Relation.ReflTransGen (strandedDocument target).edges.Steps "A" "B" := by
  intro h
  obtain heq | ⟨_, hstep, -⟩ := h.cases_head
  · simp at heq
  · exact not_steps_stranded target _ _ hstep

/-- With a status for its target the rule can be checked: the status that no move leads to is warned
about, and the initial one is not. -/
theorem validate_warns_stranded : (strandedDocument (.str "A")).Keyed ∧
    ∃ verdict, (strandedDocument (.str "A")).validate = .ok verdict ∧
      .unreachable "B" "A" ∈ verdict.issues ∧ .initialHasEntry "A" ∉ verdict.issues := by
  have keyed : (strandedDocument (.str "A")).Keyed := {
    initial := Json.isReference_null
    entry := by simp [strandedDocument]
    approvals := by simp [strandedDocument]
    targets := by
      rintro rule hrule action haction status ⟨-, hto, -⟩
      obtain rfl := List.mem_singleton.1 hrule
      obtain rfl := List.mem_singleton.1 haction
      cases hto
      exact Json.isReference_str
    stages := by simp [strandedDocument] }
  obtain ⟨verdict, h, -, hunreachable, hentry, -⟩ := validate_warns keyed
  refine ⟨keyed, verdict, h, ?_, ?_⟩
  · exact (hunreachable "B" "A").2
      ⟨designates_stranded _, by simp [strandedDocument, ParsedDocument.statusIds],
        not_reaches_stranded _⟩
  · rw [hentry]
    rintro ⟨-, source, -, hstep⟩
    exact not_steps_stranded _ source "A" hstep

/-- With a list for its target the rule ends the checks, and nothing is said about the status. -/
theorem stranded_unreported :
    let d := strandedDocument (.strings ["A"])
    ParsedDocument.ofMerged (strandedMerged (.strings ["A"])) = .ok (d, ⟨[], [], [], []⟩) ∧
      d.Designates "A" ∧ "B" ∈ d.statusIds ∧ ¬ Relation.ReflTransGen d.edges.Steps "A" "B" ∧
      d.validate = .error (.unhashable "list") := by
  refine ⟨ofMerged_stranded _, designates_stranded _, ?_, not_reaches_stranded _, rfl⟩
  simp [strandedDocument, ParsedDocument.statusIds]

end Stageflow
