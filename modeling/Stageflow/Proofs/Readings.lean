import Stageflow.Proofs.Identifiers

/-!
# What ends the reading of a document

A defect of an element is noted, and the document is reported with it. Three sorts of defects are
not: a number too large for its format and an element without a name that can be written end the
reading of the sections, and a reference that cannot be looked up, because it is a list or a
mapping, or cannot be written, ends the checks. `MergedDocument.Harmless` says that there is none of
them; exactly then a document has issues to report, be they none.

## Main statement

* `harmless_iff` — which documents the reading and the checks go through.
-/

namespace Stageflow

variable {α β : Type} {P Q : Defect → Prop}

/-! ## Failures of readings -/

/-- Whether a reading fails with no defect but those of which `P` holds. -/
def Fails (P : Defect → Prop) (reading : Except Defect α) : Prop := ∀ d, reading = .error d → P d

namespace Fails

variable {reading : Except Defect α}

theorem ok {a : α} : Fails P (.ok a) := fun _ h => by cases h

theorem pure {a : α} : Fails P (Pure.pure a : Except Defect α) := ok

theorem error {d : Defect} (h : P d) : Fails P (.error d : Except Defect α) := fun _ heq => by
  cases heq
  exact h

theorem throw {d : Defect} (h : P d) : Fails P (MonadExcept.throw d : Except Defect α) := error h

theorem mono (h : Fails P reading) (hPQ : ∀ d, P d → Q d) : Fails Q reading :=
  fun d hd => hPQ d (h d hd)

theorem bind {next : α → Except Defect β} (h : Fails P reading) (hnext : ∀ a, Fails P (next a)) :
    Fails P (reading >>= next) := by
  cases reading with
  | ok a => exact hnext a
  | error d => exact error (h d rfl)

theorem map {f : α → β} (h : Fails P reading) : Fails P (reading.map f) := by
  cases reading with
  | ok a => exact ok
  | error d => exact error (h d rfl)

theorem mapM {f : α → Except Defect β} {xs : List α} (h : ∀ x, Fails P (f x)) :
    Fails P (xs.mapM f) := by
  induction xs with
  | nil => exact pure
  | cons x rest ih =>
    rw [List.mapM_cons]
    exact (h x).bind fun _ => ih.bind fun _ => pure

end Fails

/-! ## Defects that are noted -/

/-- Whether a reading fails only with defects that are noted of an element. -/
abbrev Noted (reading : Except Defect α) : Prop := Fails (ParsedDocument.isNoted ·) reading

theorem noted_elementFields (raw : Json) : Noted raw.elementFields := by
  cases raw <;> first | exact .ok | exact .error rfl

theorem noted_require (key : String) (fields : Fields) : Noted (fields.require key) := by
  unfold Fields.require
  split
  · exact .ok
  · exact .error rfl

theorem noted_texts (key what : String) (fields : Fields) : Noted (fields.texts key what) := by
  unfold Fields.texts
  split <;> try exact .ok
  · split
    · exact .ok
    · exact .error rfl
  · exact .error rfl

theorem noted_membersOf (key : String) (fields : Fields) : Noted (fields.membersOf key) := by
  unfold Fields.membersOf
  split
  · exact .ok
  · rename_i value _
    split
    · cases value <;> first | exact .ok | exact .error rfl
    · exact .ok

theorem noted_wordAmong (words : List String) (value : Json) : Noted (value.wordAmong words) := by
  unfold Json.wordAmong
  split
  · exact .ok
  · exact .error rfl

theorem noted_written (value : Json) : Noted value.written := by
  unfold Json.written
  split
  · exact .ok
  · exact .error rfl

theorem noted_key (sect : String) (fields : Fields) : Noted (fields.key sect) := by
  unfold Fields.key
  split
  · exact noted_written _
  · split
    · exact noted_written _
    · exact .error rfl

theorem noted_identifier (what : String) (value : Json) : Noted (identifier what value) := by
  unfold identifier
  split
  · split
    · exact .ok
    · exact .error rfl
  · exact .error rfl

theorem noted_predicate (raw : Json) : Noted (Predicate.parse? raw) := by
  unfold Predicate.parse?
  split
  · exact .ok
  · refine .map ?_
    unfold Predicate.ofFields
    split
    · exact .throw rfl
    · refine (noted_wordAmong _ _).bind fun word => ?_
      split
      · exact .pure
      · exact (noted_written _).bind fun _ => .throw rfl
  · exact .error rfl

theorem noted_stage (raw : Json) : Noted (Stage.parse raw) := by
  refine (noted_elementFields raw).bind fun fields => (noted_require _ _).bind fun id =>
    (noted_identifier _ _).bind fun id => (noted_wordAmong _ _).bind fun word => ?_
  split
  · exact (noted_written _).bind fun _ => .throw rfl
  · exact (noted_predicate _).bind fun _ => (noted_texts _ _ _).bind fun _ =>
      (noted_texts _ _ _).bind fun _ => .pure

theorem noted_status (raw : Json) : Noted (Status.parse raw) := by
  refine (noted_elementFields raw).bind fun fields => (noted_require _ _).bind fun id =>
    (noted_identifier _ _).bind fun id => ?_
  split
  · exact .pure
  · exact .throw rfl

theorem noted_transition (raw : Json) : Noted (Transition.parse raw) := by
  refine (noted_elementFields raw).bind fun fields => (noted_require _ _).bind fun source => ?_
  split
  · refine (noted_texts _ _ _).bind fun targets => ?_
    split
    · exact .throw rfl
    · refine (noted_texts _ _ _).bind fun exceptions => ?_
      split
      · exact .throw rfl
      · exact (noted_key _ _).bind fun _ => .pure
  · exact .throw rfl

theorem noted_trigger (what : String) (value : Json) : Noted (Rule.parseTrigger what value) := by
  unfold Rule.parseTrigger
  split
  · split
    · exact .error rfl
    · exact .ok
  · exact .error rfl

theorem noted_target (what : String) (value : Json) : Noted (Rule.parseTarget what value) := by
  unfold Rule.parseTarget
  split
  · exact .ok
  · exact .ok
  · exact .error rfl

theorem noted_approval (what : String) (raw : Json) : Noted (Approval.parse what raw) := by
  unfold Approval.parse
  split
  · exact .throw rfl
  · split
    · exact .throw rfl
    · exact (noted_texts _ _ _).bind fun _ => .pure

theorem noted_action (raw : Json) : Noted (Action.parse raw) := by
  unfold Action.parse
  split
  · exact .throw rfl
  · split
    · exact .throw rfl
    · refine (noted_wordAmong _ _).bind fun word => ?_
      split
      · exact .pure
      · exact (noted_written _).bind fun _ => .throw rfl

/-! ## Numbers -/

/-- Whether a reading fails only with defects that are noted, or because of a number too large. -/
abbrev Numeric (reading : Except Defect α) : Prop :=
  Fails (fun d => ParsedDocument.isNoted d ∨ d = .tooLarge) reading

theorem Fails.numeric {reading : Except Defect α} (h : Noted reading) : Numeric reading :=
  h.mono fun _ => .inl

theorem numeric_number (value : Json) : Numeric value.number := by
  unfold Json.number
  split
  · split
    · exact .ok
    · exact .error (.inr rfl)
  · exact .ok
  · exact .ok
  · split
    · exact .ok
    · exact .error (.inl rfl)
  · exact .error (.inl rfl)

theorem numeric_points (what : String) (value : Json) : Numeric (Level.parsePoints what value) := by
  unfold Level.parsePoints
  split
  · exact .ok
  · exact (numeric_number _).bind fun _ => (numeric_number _).bind fun _ => .pure
  · exact .error (.inl rfl)

theorem numeric_duration (value : Json) : Numeric (Rule.parseDuration value) := by
  unfold Rule.parseDuration
  split
  · exact .ok
  · refine .map ?_
    unfold Duration.parse
    split
    · exact .error (.inl rfl)
    · split
      · exact .error (.inl rfl)
      · exact numeric_number _
    · split
      · exact .error (.inl rfl)
      · exact .ok
    · split
      · exact .ok
      · exact .error (.inl rfl)
    · exact .error (.inl rfl)

theorem numeric_level (raw : Json) : Numeric (Level.parse raw) := by
  refine (noted_elementFields raw).numeric.bind fun fields =>
    (noted_require _ _).numeric.bind fun id => (noted_identifier _ _).numeric.bind fun id =>
    (numeric_points _ _).bind fun points => (noted_membersOf _ _).numeric.bind fun members =>
    (Fails.mapM (noted_approval _)).numeric.bind fun _ => (noted_texts _ _ _).numeric.bind fun _ =>
    (noted_texts _ _ _).numeric.bind fun _ => .pure

theorem numeric_threshold (raw : Json) : Numeric (Threshold.parse raw) := by
  refine (noted_elementFields raw).numeric.bind fun fields =>
    (noted_require _ _).numeric.bind fun id => (noted_identifier _ _).numeric.bind fun id =>
    (noted_wordAmong _ _).numeric.bind fun word => ?_
  split
  · exact .throw (.inl rfl)
  · exact (noted_require _ _).numeric.bind fun _ => (numeric_number _).bind fun _ => .pure

theorem numeric_rule (raw : Json) : Numeric (Rule.parse raw) := by
  refine (noted_elementFields raw).numeric.bind fun fields =>
    (noted_require _ _).numeric.bind fun id => (noted_identifier _ _).numeric.bind fun id =>
    (noted_trigger _ _).numeric.bind fun trigger => (noted_target _ _).numeric.bind fun target =>
    (noted_membersOf _ _).numeric.bind fun onBreak =>
    (Fails.mapM noted_action).numeric.bind fun _ =>
    (noted_texts _ _ _).numeric.bind fun breakOn => ?_
  split
  · exact .throw (.inl rfl)
  · exact (noted_texts _ _ _).numeric.bind fun _ => (numeric_duration _).bind fun _ =>
      (noted_membersOf _ _).numeric.bind fun _ => (Fails.mapM noted_action).numeric.bind fun _ =>
      .pure

/-- Where no number is too large, a reading of numbers is one that is noted. -/
theorem noted_iff {reading : Except Defect α} (h : Numeric reading) :
    Noted reading ↔ reading ≠ .error .tooLarge := by
  constructor
  · intro hnoted heq
    cases hnoted _ heq
  · intro hne d hd
    obtain hnoted | rfl := h d hd
    · exact hnoted
    · exact absurd hd hne

/-! ## Sections -/

namespace ParsedDocument

variable {kind : ElementKind} {parse : Json → Except Defect α} {raws : List Json}

/-- The elements of a section are those that can be read. -/
theorem mem_readSection {elements : List α} {malformed : List Malformed}
    (h : readSection kind parse raws = .ok (elements, malformed)) {element : α} :
    element ∈ elements ↔ ∃ raw ∈ raws, parse raw = .ok element := by
  induction raws generalizing elements malformed with
  | nil =>
    cases h
    simp
  | cons raw rest ih =>
    unfold readSection at h
    cases hraw : parse raw with
    | ok first =>
      simp only [hraw] at h
      obtain ⟨⟨tail, bad⟩, htail, h⟩ := bind_eq_ok.1 h
      cases h
      simp [ih htail, hraw, eq_comm]
    | error d =>
      simp only [hraw] at h
      split at h
      · obtain ⟨ident, -, h⟩ := bind_eq_ok.1 h
        obtain ⟨⟨tail, bad⟩, htail, h⟩ := bind_eq_ok.1 h
        cases h
        simp [ih htail, hraw]
      · cases h

/-- Whether a raw element has a name to report it by: fields of which the id, or else the source,
can be written. -/
def HasName (raw : Json) : Prop := ∃ name, ident raw = .ok name

/-- What is read with an id has a name. -/
theorem hasName_of_readsId {what id : String} {raw : Json} (h : ReadsId what raw id) :
    HasName raw := by
  obtain ⟨fields, value, hfields, hvalue, hid⟩ := h
  obtain rfl := elementFields_eq_ok.1 hfields
  unfold Fields.require at hvalue
  split at hvalue <;> cases hvalue
  rename_i hget
  unfold identifier at hid
  split at hid
  · rename_i text
    exact ⟨.str text, by simp [ident, Fields.getOr, hget]⟩
  · cases hid

/-- A transition has a name: its key could be written. -/
theorem hasName_of_transition {raw : Json} {t : Transition} (h : Transition.parse raw = .ok t) :
    HasName raw := by
  have hkey := key_of_transition h
  unfold Transition.parse at h
  obtain ⟨fields, hfields, -⟩ := bind_eq_ok.1 h
  obtain rfl := elementFields_eq_ok.1 hfields
  have hwritable {value : Json} {key : String} (h : value.written = .ok key) :
      value.isWritable := by
    unfold Json.written at h
    split at h
    · assumption
    · cases h
  simp only [elementKey, Fields.key, Section.name, if_true] at hkey
  split at hkey
  · rename_i value hid
    exact ⟨value, by simp [ident, Fields.getOr, hid, hwritable hkey]⟩
  · rename_i hid
    split at hkey
    · rename_i value hsource
      exact ⟨value, by simp [ident, Fields.getOr, hid, hsource, hwritable hkey]⟩
    · cases hkey

/-- A section is read to its end exactly if the defects of its elements are all noted, and all
elements have names. -/
theorem readSection_ends (named : ∀ raw ∈ raws, ∀ element, parse raw = .ok element → HasName raw) :
    (∃ read, readSection kind parse raws = .ok read) ↔
      ∀ raw ∈ raws, Noted (parse raw) ∧ HasName raw := by
  induction raws with
  | nil => simp [readSection]
  | cons raw rest ih =>
    obtain ⟨hnamed, hrest⟩ := List.forall_mem_cons.1 named
    unfold readSection
    rw [List.forall_mem_cons, ← ih hrest]
    cases hraw : parse raw with
    | ok first =>
      constructor
      · rintro ⟨_, h⟩
        obtain ⟨read, hread, -⟩ := bind_eq_ok.1 h
        exact ⟨⟨.ok, hnamed first hraw⟩, read, hread⟩
      · rintro ⟨-, ⟨elements, malformed⟩, hread⟩
        exact ⟨_, bind_eq_ok.2 ⟨_, hread, rfl⟩⟩
    | error d =>
      dsimp only
      split
      · rename_i hnoted
        constructor
        · rintro ⟨_, h⟩
          obtain ⟨name, hname, h⟩ := bind_eq_ok.1 h
          obtain ⟨read, hread, -⟩ := bind_eq_ok.1 h
          exact ⟨⟨.error hnoted, name, hname⟩, read, hread⟩
        · rintro ⟨⟨-, name, hname⟩, ⟨elements, malformed⟩, hread⟩
          exact ⟨_, bind_eq_ok.2 ⟨_, hname, bind_eq_ok.2 ⟨_, hread, rfl⟩⟩⟩
      · rename_i hnoted
        constructor
        · rintro ⟨_, h⟩
          cases h
        · exact fun h => absurd (h.1.1 d rfl) hnoted

/-- A section of which all defects are noted is read to its end exactly if all elements have names.
-/
theorem readSection_ends_of_noted (noted : ∀ raw, Noted (parse raw))
    (named : ∀ raw ∈ raws, ∀ element, parse raw = .ok element → HasName raw) :
    (∃ read, readSection kind parse raws = .ok read) ↔ ∀ raw ∈ raws, HasName raw := by
  rw [readSection_ends named]
  exact forall₂_congr fun raw _ => and_iff_right (noted raw)

/-- A section with numbers is read to its end exactly if they fit and all elements have names. -/
theorem readSection_ends_of_numeric (numeric : ∀ raw, Numeric (parse raw))
    (named : ∀ raw ∈ raws, ∀ element, parse raw = .ok element → HasName raw) :
    (∃ read, readSection kind parse raws = .ok read) ↔
      (∀ raw ∈ raws, parse raw ≠ .error .tooLarge) ∧ ∀ raw ∈ raws, HasName raw := by
  rw [readSection_ends named, ← forall₂_and]
  exact forall₂_congr fun raw _ => and_congr_left' (noted_iff (numeric raw))

/-! ## Checks -/

theorem oneOf_ends (texts : List String) {value : Json} :
    (∃ known, value.oneOf texts = .ok known) ↔ value.isReference := by
  unfold Json.oneOf
  split <;> simp_all

/-- References are gone through exactly if each can be looked up and written. -/
theorem missing_ends {references : List Json} {known : List String}
    {issue : Json → ValidationIssue} :
    (∃ issues, missing references known issue = .ok issues) ↔ ∀ r ∈ references, r.isReference := by
  have hlookup (r : Json) : (∃ b, (do return !(← r.oneOf known) : Except Defect Bool) = .ok b) ↔
      r.isReference := by
    rw [← oneOf_ends known]
    exact exists_bind_pure
  simp only [missing, exists_bind_pure, filterM_ends, hlookup]

variable {d : ParsedDocument}

theorem checkInitial_ends :
    (∃ found, d.checkInitial = .ok found) ↔ d.initialStatus.isReference := by
  unfold checkInitial
  split
  · rename_i hnull
    simp [hnull]
  · rename_i hstr
    simp [hstr]
  · split <;> simp_all

theorem checkEntry_ends {stage : Stage} :
    (∃ issues, d.checkEntry stage = .ok issues) ↔ stage.entryStatus.isReference := by
  unfold checkEntry
  split
  · rename_i hnull
    simp [hnull]
  · rw [exists_bind_pure, oneOf_ends]

theorem checkLevel_ends {level : Level} :
    (∃ issues, d.checkLevel level = .ok issues) ↔ ∀ a ∈ level.approvals, a.stage.isReference := by
  rw [checkLevel, missing_ends, List.forall_mem_append, List.forall_mem_map, List.forall_mem_map]
  exact and_iff_right fun _ _ => Json.isReference_str

theorem checkRule_ends {rule : Rule} :
    (∃ issues, d.checkRule rule = .ok issues) ↔
      ∀ a ∈ rule.actions ++ rule.onBreak, ∀ status, a.AsksFor status → status.isReference := by
  rw [checkRule, missing_ends, List.forall_mem_append, List.forall_mem_map]
  refine (and_iff_right fun _ _ => Json.isReference_str).trans ?_
  simp only [List.mem_filterMap, actionTarget?_eq_some]
  constructor
  · exact fun h a ha status hasks => h status ⟨a, ha, hasks⟩
  · rintro h status ⟨a, ha, hasks⟩
    exact h a ha status hasks

theorem checkThreshold_ends {t : Threshold} :
    (∃ issues, d.checkThreshold t = .ok issues) ↔ t.stage.isReference := by
  unfold checkThreshold
  split
  · rename_i hnull
    simp [hnull]
  · rw [exists_bind_pure, oneOf_ends]

/-- A check of each element comes to an end exactly if the check of every one does. -/
theorem mapM_ends {check : α → Except Defect (List ValidationIssue)} {xs : List α} :
    (∃ issues, xs.mapM check = .ok issues) ↔ ∀ x ∈ xs, ∃ issues, check x = .ok issues := by
  have hends : (∃ issues, xs.mapM check = .ok issues ∧ ∀ found ∈ issues, True) ↔
      ∀ x ∈ xs, ∃ issues, check x = .ok issues ∧ True := mapM_eq_ok
  simpa using hends

/-- The checks come to an end exactly if every reference can be looked up and written. -/
theorem validate_ends :
    (∃ verdict, d.validate = .ok verdict) ↔
      d.initialStatus.isReference ∧ (∀ stage ∈ d.stages, stage.entryStatus.isReference) ∧
        (∀ level ∈ d.levels, ∀ a ∈ level.approvals, a.stage.isReference) ∧
        (∀ rule ∈ d.rules, ∀ a ∈ rule.actions ++ rule.onBreak, ∀ status, a.AsksFor status →
          status.isReference) ∧
        ∀ t ∈ d.thresholds, t.stage.isReference := by
  simp only [← checkInitial_ends, ← checkEntry_ends (d := d), ← checkLevel_ends (d := d),
    ← checkRule_ends (d := d), ← checkThreshold_ends (d := d), ← mapM_ends]
  constructor
  · rintro ⟨verdict, h⟩
    obtain ⟨initial, issues, entry, levels, rules, thresholds, hinitial, hentry, hlevels, hrules,
      hthresholds, -⟩ := validate_eq_ok.1 h
    exact ⟨⟨_, hinitial⟩, ⟨_, hentry⟩, ⟨_, hlevels⟩, ⟨_, hrules⟩, _, hthresholds⟩
  · rintro ⟨⟨⟨initial, issues⟩, hinitial⟩, ⟨entry, hentry⟩, ⟨levels, hlevels⟩, ⟨rules, hrules⟩,
      thresholds, hthresholds⟩
    exact ⟨_, validate_eq_ok.2 ⟨initial, issues, entry, levels, rules, thresholds, hinitial, hentry,
      hlevels, hrules, hthresholds, rfl⟩⟩

end ParsedDocument

/-! ## Documents -/

/-- A document of which every number fits its format, every element has a name, and every reference
can be looked up and written. -/
structure MergedDocument.Harmless (document : MergedDocument) : Prop where
  levels : ∀ raw ∈ document.sections.complexity, Level.parse raw ≠ .error .tooLarge
  rules : ∀ raw ∈ document.sections.automation, Rule.parse raw ≠ .error .tooLarge
  thresholds : ∀ raw ∈ document.sections.metrics, Threshold.parse raw ≠ .error .tooLarge
  names : ∀ sect, ∀ raw ∈ document.sections.of sect, ParsedDocument.HasName raw
  initial : document.initialStatus.isReference
  entry : ∀ raw ∈ document.sections.stages, ∀ stage, Stage.parse raw = .ok stage →
    stage.entryStatus.isReference
  approvals : ∀ raw ∈ document.sections.complexity, ∀ level, Level.parse raw = .ok level →
    ∀ a ∈ level.approvals, a.stage.isReference
  targets : ∀ raw ∈ document.sections.automation, ∀ rule, Rule.parse raw = .ok rule →
    ∀ a ∈ rule.actions ++ rule.onBreak, ∀ status, a.AsksFor status → status.isReference
  stages : ∀ raw ∈ document.sections.metrics, ∀ t, Threshold.parse raw = .ok t → t.stage.isReference

namespace ParsedDocument

variable {document : MergedDocument}

/-- The sections of a document are read to their ends exactly if every number fits and every element
has a name. -/
theorem ofMerged_ends :
    (∃ read, ofMerged document = .ok read) ↔
      (∀ raw ∈ document.sections.complexity, Level.parse raw ≠ .error .tooLarge) ∧
        (∀ raw ∈ document.sections.automation, Rule.parse raw ≠ .error .tooLarge) ∧
        (∀ raw ∈ document.sections.metrics, Threshold.parse raw ≠ .error .tooLarge) ∧
        ∀ sect, ∀ raw ∈ document.sections.of sect, HasName raw := by
  have hstages := @readSection_ends_of_noted _ .stage _ document.sections.stages noted_stage
    fun _ _ _ h => hasName_of_readsId (Stage.readsId h)
  have hstatuses := @readSection_ends_of_noted _ .status _ document.sections.statuses noted_status
    fun _ _ _ h => hasName_of_readsId (Status.readsId h)
  have htransitions := @readSection_ends_of_noted _ .transition _ document.sections.transitions
    noted_transition fun _ _ _ h => hasName_of_transition h
  have hlevels := @readSection_ends_of_numeric _ .level _ document.sections.complexity
    numeric_level fun _ _ _ h => hasName_of_readsId (Level.readsId h)
  have hrules := @readSection_ends_of_numeric _ .rule _ document.sections.automation
    numeric_rule fun _ _ _ h => hasName_of_readsId (Rule.readsId h)
  have hthresholds := @readSection_ends_of_numeric _ .threshold _ document.sections.metrics
    numeric_threshold fun _ _ _ h => hasName_of_readsId (Threshold.readsId h)
  constructor
  · rintro ⟨⟨d, notes⟩, h⟩
    obtain ⟨_, _, _, _, _, _, stages, statuses, transitions, levels, rules, thresholds, -⟩ :=
      ofMerged_eq_ok.1 h
    obtain ⟨hlevel, hlevelNames⟩ := hlevels.1 ⟨_, levels⟩
    obtain ⟨hrule, hruleNames⟩ := hrules.1 ⟨_, rules⟩
    obtain ⟨hthreshold, hthresholdNames⟩ := hthresholds.1 ⟨_, thresholds⟩
    refine ⟨hlevel, hrule, hthreshold, fun sect => ?_⟩
    cases sect with
    | stages => exact hstages.1 ⟨_, stages⟩
    | statuses => exact hstatuses.1 ⟨_, statuses⟩
    | transitions => exact htransitions.1 ⟨_, transitions⟩
    | complexity => exact hlevelNames
    | automation => exact hruleNames
    | metrics => exact hthresholdNames
  · rintro ⟨hlevel, hrule, hthreshold, hnames⟩
    obtain ⟨⟨stages, _⟩, hstages⟩ := hstages.2 (hnames .stages)
    obtain ⟨⟨statuses, _⟩, hstatuses⟩ := hstatuses.2 (hnames .statuses)
    obtain ⟨⟨transitions, _⟩, htransitions⟩ := htransitions.2 (hnames .transitions)
    obtain ⟨⟨levels, _⟩, hlevels⟩ := hlevels.2 ⟨hlevel, hnames .complexity⟩
    obtain ⟨⟨rules, _⟩, hrules⟩ := hrules.2 ⟨hrule, hnames .automation⟩
    obtain ⟨⟨thresholds, _⟩, hthresholds⟩ := hthresholds.2 ⟨hthreshold, hnames .metrics⟩
    let d : ParsedDocument :=
      ⟨stages, statuses, transitions, levels, rules, thresholds, document.initialStatus⟩
    exact ⟨(d, _), ofMerged_eq_ok.2 ⟨_, _, _, _, _, _, hstages, hstatuses, htransitions, hlevels,
      hrules, hthresholds, rfl, rfl⟩⟩

/-- The checks of what was read come to an end exactly if every reference in the document can be
looked up and written. -/
theorem validate_ends_of_ofMerged {notes : Notes} (h : ofMerged document = .ok (d, notes)) :
    (∃ verdict, d.validate = .ok verdict) ↔
      document.initialStatus.isReference ∧
        (∀ raw ∈ document.sections.stages, ∀ stage, Stage.parse raw = .ok stage →
          stage.entryStatus.isReference) ∧
        (∀ raw ∈ document.sections.complexity, ∀ level, Level.parse raw = .ok level →
          ∀ a ∈ level.approvals, a.stage.isReference) ∧
        (∀ raw ∈ document.sections.automation, ∀ rule, Rule.parse raw = .ok rule →
          ∀ a ∈ rule.actions ++ rule.onBreak, ∀ status, a.AsksFor status → status.isReference) ∧
        ∀ raw ∈ document.sections.metrics, ∀ t, Threshold.parse raw = .ok t →
          t.stage.isReference := by
  obtain ⟨_, _, _, _, _, _, hstages, -, -, hlevels, hrules, hthresholds, hinitial, -⟩ :=
    ofMerged_eq_ok.1 h
  have through {α : Type} {elements : List α} {raws : List Json} {parse : Json → Except Defect α}
      (P : α → Prop) (hmem : ∀ {x}, x ∈ elements ↔ ∃ raw ∈ raws, parse raw = .ok x) :
      (∀ x ∈ elements, P x) ↔ ∀ raw ∈ raws, ∀ x, parse raw = .ok x → P x :=
    ⟨fun h raw hraw x hx => h x (hmem.2 ⟨raw, hraw, hx⟩), fun h x hx =>
      let ⟨raw, hraw, hparse⟩ := hmem.1 hx
      h raw hraw x hparse⟩
  rw [validate_ends, hinitial, through _ (mem_readSection hstages),
    through _ (mem_readSection hlevels), through _ (mem_readSection hrules),
    through _ (mem_readSection hthresholds)]

end ParsedDocument

open ParsedDocument in
/-- A document has issues to report, be they none, exactly if every number fits, every element has a
name, and every reference can be looked up and written. -/
theorem harmless_iff {document : MergedDocument} :
    document.Harmless ↔ ∃ issues, document.issues = .ok issues := by
  constructor
  · intro h
    obtain ⟨⟨d, notes⟩, hread⟩ := ofMerged_ends.2 ⟨h.levels, h.rules, h.thresholds, h.names⟩
    obtain ⟨verdict, hverdict⟩ :=
      (validate_ends_of_ofMerged hread).2 ⟨h.initial, h.entry, h.approvals, h.targets, h.stages⟩
    exact ⟨_, bind_eq_ok.2 ⟨_, hread, bind_eq_ok.2 ⟨_, hverdict, rfl⟩⟩⟩
  · rintro ⟨issues, h⟩
    obtain ⟨⟨d, notes⟩, hread, h⟩ := bind_eq_ok.1 h
    obtain ⟨verdict, hverdict, -⟩ := bind_eq_ok.1 h
    obtain ⟨levels, rules, thresholds, names⟩ := ofMerged_ends.1 ⟨_, hread⟩
    obtain ⟨initial, entry, approvals, targets, stages⟩ :=
      (validate_ends_of_ofMerged hread).1 ⟨verdict, hverdict⟩
    exact { levels, rules, thresholds, names, initial, entry, approvals, targets, stages }

end Stageflow
