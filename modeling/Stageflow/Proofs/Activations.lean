import Stageflow.Proofs.Applied
import Stageflow.Proofs.Evolution.Session
import Stageflow.Proofs.WellFormed

/-!
# What an activation comes to

Activating a team builds the next version of its workflow from the documents (`Source.build`) and
publishes it. Whether it can be built does not depend on the version. A check goes the same way
without publishing, so it foretells what an activation comes to.

## Main statements

* `Run.activate_apply` — an activation publishes what is built, or changes nothing but the journal.
* `activate_of_check` — what a check reports is what an activation comes to.
-/

namespace Stageflow

/-! ## Compiling -/

/-- Where there is a status, the checks settle on an initial one. -/
theorem ParsedDocument.isSome_initial {d : ParsedDocument} {initial : Option String}
    {issues : List ValidationIssue} (h : d.checkInitial = .ok (initial, issues))
    (statuses : d.statuses ≠ []) : initial.isSome := by
  have hhead : d.statusIds.head?.isSome := by
    simpa [statusIds, Option.isSome_iff_ne_none] using statuses
  unfold checkInitial at h
  split at h
  · cases h
    exact hhead
  · split at h <;> cases h
    · rfl
    · exact hhead
  · split at h <;> cases h
    exact hhead

/-- Where the checks find no error, they settle on an initial status. -/
theorem ParsedDocument.exists_initial {d : ParsedDocument} {verdict : Verdict}
    (h : d.validate = .ok verdict) (warnings : ∀ issue ∈ verdict.issues, issue.isWarning) :
    ∃ initial, verdict.initial = some initial := by
  obtain ⟨initial, _, _, _, _, _, hinitial, -, -, -, -, rfl⟩ := validate_eq_ok.1 h
  simp only [List.forall_mem_append] at warnings
  obtain ⟨⟨⟨⟨⟨⟨⟨⟨⟨hnothing, -⟩, -⟩, -⟩, -⟩, -⟩, -⟩, -⟩, -⟩, -⟩ := warnings
  exact Option.isSome_iff_exists.1 (isSome_initial hinitial (nothingDeclared_passes.1 hnothing).2)

/-- What compiling a document comes to, by its issues: where they only advise, a workflow that has
them for warnings. -/
theorem issues_of_compile (merged : MergedDocument) (version : Int) :
    match merged.compile version with
    | .ok w =>
      ∃ issues, merged.issues = .ok issues ∧ (∀ issue ∈ issues, issue.isWarning) ∧
        w.warnings = issues.map (·.line)
    | .error (.invalid issues) => merged.issues = .ok issues ∧ ∃ issue ∈ issues, ¬ issue.isWarning
    | .error (.defect d) => merged.issues = .error d := by
  unfold MergedDocument.compile MergedDocument.issues
  cases hparsed : ParsedDocument.ofMerged merged with
  | error d => rfl
  | ok read =>
    obtain ⟨parsed, notes⟩ := read
    cases hverdict : parsed.validate with
    | error d => simp [hverdict, Except.mapError, bind, Except.bind]
    | ok verdict =>
      simp only [hverdict, Except.mapError, bind, Except.bind, pure, Except.pure]
      split
      · rename_i w hw
        split at hw
        · rename_i hall _
          cases hw
          exact ⟨_, rfl, List.all_eq_true.1 hall, rfl⟩
        · cases hw
      · rename_i issues hw
        split at hw
        · cases hw
        · rename_i hstopped
          cases hw
          refine ⟨rfl, ?_⟩
          by_contra hwarnings
          have hall : ∀ issue ∈ notes.issues ++ verdict.issues, issue.isWarning := by
            simpa using hwarnings
          obtain ⟨initial, hinitial⟩ := ParsedDocument.exists_initial hverdict
            (List.forall_mem_append.1 hall).2
          exact hstopped initial (List.all_eq_true.2 hall) hinitial
      · rename_i hw
        split at hw <;> cases hw

/-- The version of a compiled document is only written down. -/
theorem compile_version (merged : MergedDocument) (version version' : Int) :
    merged.compile version' =
      (merged.compile version).map fun w => { w with version := version' } := by
  unfold MergedDocument.compile
  cases ParsedDocument.ofMerged merged with
  | error d => rfl
  | ok read =>
    obtain ⟨parsed, notes⟩ := read
    simp only [Except.mapError, bind, Except.bind]
    cases parsed.validate with
    | error d => rfl
    | ok verdict =>
      dsimp only
      split <;> rfl

/-! ## Building -/

/-- The workflow that the document of a team makes at a version, or why there is none. -/
def Source.build (source : Source) (team : String) (version : Int) : Except Fault Workflow :=
  match source.document? team with
  | none => .error (.noDocument team)
  | some document =>
    match source.resolve document with
    | .error (.issues issues) => .error (.unresolved document.id issues)
    | .error (.defect d) => .error (.defect d)
    | .ok merged =>
      match merged.compile version with
      | .ok w => .ok w
      | .error (.invalid issues) => .error (.invalid merged.team issues)
      | .error (.defect d) => .error (.defect d)

/-- A workflow is built of a team that has a document, which is resolved and compiled. -/
theorem build_eq_ok {source : Source} {team : String} {version : Int} {w : Workflow} :
    source.build team version = .ok w ↔ ∃ document merged, source.document? team = some document ∧
      source.resolve document = .ok merged ∧ merged.compile version = .ok w := by
  unfold Source.build
  cases source.document? team with
  | none => simp
  | some document =>
    simp only [Option.some.injEq, exists_and_left, exists_eq_left']
    cases source.resolve document with
    | error unresolved => cases unresolved <;> simp
    | ok merged =>
      simp only [Except.ok.injEq, exists_eq_left']
      cases merged.compile version with
      | ok built => simp
      | error fault => cases fault <;> simp

/-- Whether a workflow can be built, and what is in the way, does not depend on the version. -/
theorem build_version (source : Source) (team : String) (version version' : Int) :
    source.build team version' =
      (source.build team version).map fun w => { w with version := version' } := by
  unfold Source.build
  cases source.document? team with
  | none => rfl
  | some document =>
    dsimp only
    cases source.resolve document with
    | error unresolved => cases unresolved <;> rfl
    | ok merged =>
      dsimp only
      rw [compile_version merged version version']
      cases merged.compile version with
      | ok w => rfl
      | error fault => cases fault <;> rfl

namespace Run

theorem resolve_apply (document : TeamDocument) (s : System) :
    resolve document s =
      match s.source.resolve document with
      | .ok merged => .ok merged s
      | .error (.issues issues) =>
        .error (.raised (.unresolved document.id issues))
          { s with journal := .resolutionFailed document.id issues.length :: s.journal }
      | .error (.defect d) => .error (.raised (.defect d)) s := by
  unfold resolve
  rw [get_bind_apply]
  cases s.source.resolve document with
  | ok merged => rfl
  | error unresolved => cases unresolved <;> rfl

theorem compile_apply (merged : MergedDocument) (version : Int) (s : System) :
    ∃ notices, compile merged version s =
      match merged.compile version with
      | .ok w => .ok w { s with journal := notices ++ s.journal }
      | .error (.invalid issues) =>
        .error (.raised (.invalid merged.team issues)) { s with journal := notices ++ s.journal }
      | .error (.defect d) =>
        .error (.raised (.defect d)) { s with journal := notices ++ s.journal } := by
  unfold compile
  cases merged.compile version with
  | ok w =>
    refine ⟨(w.warnings.map (.quality merged.team)).reverse, ?_⟩
    simp only [bind_apply, forM_note]
    rfl
  | error fault =>
    cases fault with
    | invalid issues =>
      exact ⟨[.validationFailed merged.team (issues.filter fun i => !i.isWarning).length], rfl⟩
    | defect d => exact ⟨[], rfl⟩

/-- The next version that is built of a team is taken into memory. If none is built, what is in the
way is raised, and nothing but the journal changes. -/
theorem renew_apply (team : String) (s : System) :
    ∃ notices, renew team s =
      match s.source.build team (s.registry.nextVersion team) with
      | .ok w =>
        .ok w { s with registry := s.registry.enter w, journal := notices ++ s.journal }
      | .error fault => .error (.raised fault) { s with journal := notices ++ s.journal } := by
  unfold renew draft Source.build
  rw [bind_apply, get_bind_apply]
  cases s.source.document? team with
  | none => exact ⟨[], rfl⟩
  | some document =>
    dsimp only
    rw [resolve_apply]
    cases s.source.resolve document with
    | error unresolved =>
      cases unresolved with
      | issues issues => exact ⟨[.resolutionFailed document.id issues.length], rfl⟩
      | defect d => exact ⟨[], rfl⟩
    | ok merged =>
      obtain ⟨notices, hcompile⟩ := compile_apply merged (s.registry.nextVersion team) s
      refine ⟨notices, ?_⟩
      dsimp only
      rw [get_bind_apply, bind_apply, hcompile]
      cases merged.compile (s.registry.nextVersion team) with
      | ok w => rfl
      | error fault => cases fault <;> rfl

/-- An activation publishes the next version that is built of the team. If none is built, it raises
what is in the way and changes nothing but the journal. -/
theorem activate_apply (team : String) (s : System) :
    ∃ notices, activate team s =
      match s.source.build team (s.registry.nextVersion team) with
      | .ok w =>
        .ok w { s with registry := s.registry.publish w, journal := notices ++ s.journal }
      | .error fault => .error (.raised fault) { s with journal := notices ++ s.journal } := by
  obtain ⟨notices, hrenew⟩ := renew_apply team s
  refine ⟨notices, ?_⟩
  rw [activate_eq_renew, bind_apply, hrenew]
  cases s.source.build team (s.registry.nextVersion team) <;> rfl

/-- What an activation gives was built of the team, and is published. -/
theorem activate_eq_ok {team : String} {s t : System} {w : Workflow}
    (h : activate team s = .ok w t) :
    s.source.build team (s.registry.nextVersion team) = .ok w ∧ ∃ notices,
      t = { s with registry := s.registry.publish w, journal := notices ++ s.journal } := by
  obtain ⟨notices, hactivate⟩ := activate_apply team s
  rw [h] at hactivate
  cases hbuild : s.source.build team (s.registry.nextVersion team) with
  | error fault =>
    simp only [hbuild] at hactivate
    cases hactivate
  | ok built =>
    simp only [hbuild] at hactivate
    cases hactivate
    exact ⟨rfl, notices, rfl⟩

/-- Activating teams goes on after a success and after a failure of one team's own. -/
theorem activateTeams_cons (team : String) (rest : List String) (s : System) :
    activateTeams (team :: rest) s =
      match activate team s with
      | .ok w t => ((fun (done, failures) => (w :: done, failures)) <$> activateTeams rest) t
      | .error (.raised fault) t =>
        if isLocal fault then
          ((fun (done, failures) => (done, (team, fault) :: failures)) <$> activateTeams rest)
            { t with journal := .notActivated team fault :: t.journal }
        else .error (.raised fault) t
      | .error .hung t => .error .hung t := by
  rw [activateTeams, bind_apply, attempt_apply]
  cases activate team s with
  | ok w t => rfl
  | error halt t =>
    cases halt with
    | hung => rfl
    | raised fault =>
      dsimp only
      split <;> rfl

theorem check_apply (team : String) (s : System) :
    ∃ notices, check team s =
      match s.source.check team with
      | .ok report => .ok report { s with journal := notices ++ s.journal }
      | .error d => .error (.raised (.defect d)) { s with journal := notices ++ s.journal } := by
  unfold check
  rw [get_bind_apply, bind_apply]
  cases s.source.checkNotice? team with
  | none => exact ⟨[], by cases s.source.check team <;> rfl⟩
  | some notice => exact ⟨[notice], by cases s.source.check team <;> rfl⟩

end Run

/-! ## What a check foretells -/

/-- The failure to activate a team that a report foretells, for the document that the team has. -/
def CheckReport.refusal (report : CheckReport) : Option TeamDocument → Fault
  | none => .noDocument report.team
  | some document =>
    if report.resolutionIssues.isEmpty then .invalid document.id report.validationIssues
    else .unresolved document.id report.resolutionIssues

/-- A report on a team is of what is built of it: in order exactly if there is a workflow, and then
with its warnings, else with the issues that are in the way. -/
theorem build_of_check {source : Source} {team : String} {report : CheckReport}
    (h : source.check team = .ok report) (version : Int) :
    match source.build team version with
    | .ok w =>
      report.ok ∧ w.warnings = (report.validationIssues.filter (·.isWarning)).map (·.line)
    | .error fault => ¬ report.ok ∧ fault = report.refusal (source.document? team) := by
  unfold Source.check at h
  unfold Source.build
  cases hdocument : source.document? team with
  | none =>
    simp only [hdocument] at h
    cases h
    simp [CheckReport.ok, CheckReport.refusal]
  | some document =>
    simp only [hdocument] at h ⊢
    cases hresolve : source.resolve document with
    | error unresolved =>
      simp only [hresolve] at h
      cases unresolved with
      | issues issues =>
        cases h
        simp [CheckReport.ok, CheckReport.refusal, Source.resolve_issues_ne_nil hresolve]
      | defect d => cases h
    | ok merged =>
      simp only [hresolve] at h ⊢
      obtain ⟨issues, hissues, h⟩ := bind_eq_ok.1 h
      cases h
      have hcompile := issues_of_compile merged version
      rw [hissues] at hcompile
      cases hw : merged.compile version with
      | ok w =>
        simp only [hw] at hcompile ⊢
        obtain ⟨_, heq, hwarnings, hlines⟩ := hcompile
        cases heq
        refine ⟨?_, ?_⟩
        · simpa [CheckReport.ok] using hwarnings
        · rw [hlines, List.filter_eq_self.2 hwarnings]
      | error fault =>
        cases fault with
        | invalid found =>
          simp only [hw] at hcompile ⊢
          obtain ⟨heq, issue, hissue, herror⟩ := hcompile
          cases heq
          refine ⟨?_, ?_⟩
          · simpa [CheckReport.ok] using ⟨issue, hissue, by simpa using herror⟩
          · simp [CheckReport.refusal, Run.team_resolve hresolve]
        | defect d =>
          simp only [hw] at hcompile
          cases hcompile

/-- What a check reports is what an activation from the same documents comes to. The report is in
order exactly if the activation succeeds, and the workflow then has the warnings reported. If it is
not, the activation raises that the team has no document, else the issues of its resolution that are
reported, else those of its validation. -/
theorem activate_of_check {s s' t : System} {team : String} {report : CheckReport}
    (source : t.source = s.source) (checked : Run.check team s = .ok report s') :
    (report.ok ↔ ∃ w t', Run.activate team t = .ok w t') ∧
      (∀ w t', Run.activate team t = .ok w t' →
        w.warnings = (report.validationIssues.filter (·.isWarning)).map (·.line)) ∧
      (¬ report.ok → ∃ t', Run.activate team t =
        .error (.raised (report.refusal (t.source.document? team))) t') := by
  have hcheck : t.source.check team = .ok report := by
    obtain ⟨notices, heq⟩ := Run.check_apply team s
    rw [source]
    rw [checked] at heq
    cases hreport : s.source.check team with
    | ok found =>
      simp only [hreport] at heq
      cases heq
      rfl
    | error d =>
      simp only [hreport] at heq
      cases heq
  have hbuild := build_of_check hcheck (t.registry.nextVersion team)
  obtain ⟨notices, hactivate⟩ := Run.activate_apply team t
  rw [hactivate]
  cases hw : t.source.build team (t.registry.nextVersion team) with
  | ok w =>
    simp only [hw] at hbuild ⊢
    obtain ⟨hok, hwarnings⟩ := hbuild
    refine ⟨⟨fun _ => ⟨_, _, rfl⟩, fun _ => hok⟩, fun _ _ h => ?_, fun h => absurd hok h⟩
    cases h
    exact hwarnings
  | error fault =>
    simp only [hw] at hbuild ⊢
    obtain ⟨hrefused, rfl⟩ := hbuild
    refine ⟨⟨fun hok => absurd hok hrefused, ?_⟩, ?_, fun _ => ⟨_, rfl⟩⟩
    · rintro ⟨_, _, h⟩
      cases h
    · intro _ _ h
      cases h

/-- The report on the sample team is in order, and its activation succeeds; that on a team without a
document is not, and its activation raises so. -/
theorem activate_of_check_sample :
    let s := ({} : System).through [.putDocument (sampleDocument [] [])]
    (∃ report s', Run.check "t" s = .ok report s' ∧ report.ok ∧
      ∃ w t', Run.activate "t" s = .ok w t') ∧
    ∃ report s', Run.check "u" s = .ok report s' ∧ ¬ report.ok ∧
      ∃ t', Run.activate "u" s = .error (.raised (.noDocument "u")) t' := by
  intro s
  refine ⟨?_, ?_⟩
  · have hreport : (Run.check "t").succeeds s fun report _ => report.ok := by decide +kernel
    obtain ⟨report, s', hcheck, hok⟩ := Run.succeeds_iff.1 hreport
    exact ⟨report, s', hcheck, hok, (activate_of_check rfl hcheck).1.1 hok⟩
  · obtain ⟨-, -, hrefused⟩ := activate_of_check (t := s) rfl
      (rfl : Run.check "u" s = .ok { team := "u", resolutionIssues := [⟨"u", .unknownTeam⟩] } s)
    exact ⟨_, _, rfl, by decide, hrefused (by decide)⟩

end Stageflow
