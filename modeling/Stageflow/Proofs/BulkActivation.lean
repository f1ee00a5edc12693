import Stageflow.Proofs.Readings
import Stageflow.Proofs.VersionHistories

/-!
# Activating every team

Activating every team goes on after a failure that is put down to one team's document. All failures
are of that sort as long as the documents are harmless; then each team is activated or its failure
is collected, as if it were activated on its own. A single document that is not stops the others.

## Main statements

* `activateAll_collects` — what activating every team comes to, if the documents are harmless.
* `activateAll_stopped` — a document that keeps another team from being activated.
-/

namespace Stageflow

/-- Whether a workflow can be built of a team's document. -/
def Source.builds (source : Source) (team : String) : Bool := (source.build team 1).isOk

theorem builds_iff {source : Source} {team : String} (version : Int) :
    source.builds team ↔ ∃ w, source.build team version = .ok w := by
  unfold Source.builds
  rw [build_version source team version 1]
  cases source.build team version <;> simp [Except.isOk, Except.toBool, Except.map]

/-- Whether a document is harmless: no value that cannot be written ends its resolution, as where
all that is met can be named (`Resolution.resolve_of_named`), and what it is resolved to is
harmless. -/
structure Source.HarmlessDocument (source : Source) (document : TeamDocument) : Prop where
  resolution : ∀ d, source.resolve document ≠ .error (.defect d)
  merged : ∀ merged, source.resolve document = .ok merged → merged.Harmless

/-- A source of which every listed team's document is harmless. -/
def Source.Harmless (source : Source) : Prop :=
  ∀ team ∈ source.teamIds, ∀ document, source.document? team = some document →
    source.HarmlessDocument document

/-- The documents of a source are harmless exactly if a check of each listed team gives a report. -/
theorem harmless_iff_check {source : Source} :
    source.Harmless ↔ ∀ team ∈ source.teamIds, ∃ report, source.check team = .ok report := by
  refine forall₂_congr fun team _ => ?_
  unfold Source.check
  cases source.document? team with
  | none => simp
  | some document =>
    simp only [Option.some.injEq, forall_eq']
    cases hmerged : source.resolve document with
    | error unresolved =>
      cases unresolved with
      | issues issues => exact iff_of_true ⟨by simp [hmerged], by simp [hmerged]⟩ ⟨_, rfl⟩
      | defect d => exact iff_of_false (fun h => h.resolution d hmerged) (by simp)
    | ok merged =>
      have hiff : source.HarmlessDocument document ↔ merged.Harmless :=
        ⟨fun h => h.merged merged hmerged, fun h => ⟨by simp [hmerged], by simp [hmerged, h]⟩⟩
      rw [hiff, harmless_iff]
      exact exists_bind_pure.symm

/-- What is in the way of a harmless document is put down to its team. -/
theorem isLocal_of_build {source : Source} {team : String} {version : Int} {fault : Fault}
    (harmless : ∀ document, source.document? team = some document →
      source.HarmlessDocument document)
    (h : source.build team version = .error fault) : Run.isLocal fault := by
  unfold Source.build at h
  split at h
  · cases h
    rfl
  · rename_i document hdocument
    split at h
    · cases h
      rfl
    · rename_i d hdefect
      exact absurd hdefect ((harmless document hdocument).resolution d)
    · rename_i merged hmerged
      obtain ⟨issues, hissues⟩ :=
        harmless_iff.1 ((harmless document hdocument).merged merged hmerged)
      have hcompile := issues_of_compile merged version
      split at h <;> cases h
      · rfl
      · rename_i hdefect
        simp only [hdefect, hissues] at hcompile
        cases hcompile

namespace Run

variable {s : System} {team : String}

/-- An activation succeeds where a workflow can be built. -/
theorem activate_ok_iff : (∃ w t, activate team s = .ok w t) ↔ s.source.builds team := by
  rw [builds_iff (s.registry.nextVersion team)]
  obtain ⟨notices, h⟩ := activate_apply team s
  rw [h]
  cases s.source.build team (s.registry.nextVersion team) <;> simp

theorem activate_raised_iff {fault : Fault} (version : Int) :
    (∃ t, activate team s = .error (.raised fault) t) ↔
      s.source.build team version = .error fault := by
  rw [build_version s.source team (s.registry.nextVersion team) version]
  obtain ⟨notices, h⟩ := activate_apply team s
  rw [h]
  cases s.source.build team (s.registry.nextVersion team) <;> simp [Except.map]

/-- Activating teams whose failures are their own gives the workflows of those that can be built,
and the failures of the others. -/
theorem activateTeams_apply {teams : List String} (keyed : s.source.Keyed)
    (hlocal : ∀ team ∈ teams, ∀ version fault, s.source.build team version = .error fault →
      isLocal fault) :
    ∃ done failures t, activateTeams teams s = .ok (done, failures) t ∧
      done.map (·.team) = teams.filter s.source.builds ∧
      failures.keys = teams.filter (!s.source.builds ·) ∧
      ∀ p ∈ failures, s.source.build p.1 1 = .error p.2 := by
  induction teams generalizing s with
  | nil => exact ⟨[], [], s, rfl, rfl, rfl, by simp⟩
  | cons team rest ih =>
    obtain ⟨hteam, hrest⟩ := List.forall_mem_cons.1 hlocal
    obtain ⟨notices, hactivate⟩ := activate_apply team s
    rw [activateTeams_cons, hactivate]
    cases hbuild : s.source.build team (s.registry.nextVersion team) with
    | ok w =>
      have hbuilds : s.source.builds team := (builds_iff _).2 ⟨w, hbuild⟩
      obtain ⟨done, failures, t, hrun, hdone, hkeys, hfailed⟩ :=
        ih (s := { s with registry := s.registry.publish w, journal := notices ++ s.journal })
          keyed hrest
      refine ⟨w :: done, failures, t, ?_, ?_, ?_, hfailed⟩
      · dsimp only
        rw [map_apply, hrun]
      · simp [hbuilds, hdone, (build_names keyed hbuild).1]
      · simp [hbuilds, hkeys]
    | error fault =>
      have hbuilds : s.source.builds team = false := by
        rw [Bool.eq_false_iff, ne_eq, builds_iff (s.registry.nextVersion team), hbuild]
        simp
      obtain ⟨done, failures, t, hrun, hdone, hkeys, hfailed⟩ :=
        ih (s := { s with journal := .notActivated team fault :: (notices ++ s.journal) })
          keyed hrest
      have hfault : s.source.build team 1 = .error fault := by
        rw [build_version s.source team (s.registry.nextVersion team) 1, hbuild]
        rfl
      refine ⟨done, (team, fault) :: failures, t, ?_, ?_, ?_, ?_⟩
      · simp only [hteam _ _ hbuild, if_true]
        rw [map_apply, hrun]
      · simp [hbuilds, hdone]
      · rw [List.filter_cons_of_pos (by simp [hbuilds]), ← hkeys]
        rfl
      · exact List.forall_mem_cons.2 ⟨hfault, hfailed⟩

end Run

/-! ## Every team -/

/-- Activating every team succeeds where the documents are harmless. A listed team is among the
activated ones exactly if its activation would succeed on its own, and else among the failures, with
the failure of that activation. -/
theorem activateAll_collects {s : System} (keyed : s.source.Keyed) (harmless : s.source.Harmless) :
    ∃ done failures t, Run.activateAll s = .ok (done, failures) t ∧
      (∀ team, team ∈ done.map (·.team) ↔
        team ∈ s.source.teamIds ∧ ∃ w u, Run.activate team s = .ok w u) ∧
      (∀ team, team ∈ failures.keys ↔
        team ∈ s.source.teamIds ∧ ¬ ∃ w u, Run.activate team s = .ok w u) ∧
      ∀ p ∈ failures, ∃ u, Run.activate p.1 s = .error (.raised p.2) u := by
  have hlocal (team) (hteam : team ∈ s.source.teamIds) (version) (fault)
      (hfault : s.source.build team version = .error fault) : Run.isLocal fault :=
    isLocal_of_build (harmless team hteam) hfault
  obtain ⟨done, failures, t, hrun, hdone, hkeys, hfailed⟩ := Run.activateTeams_apply keyed hlocal
  refine ⟨done, failures, t, hrun, fun team => ?_, fun team => ?_, fun p hp => ?_⟩
  · rw [hdone, List.mem_filter, Run.activate_ok_iff]
  · rw [hkeys, List.mem_filter, Run.activate_ok_iff, Bool.not_eq_true', Bool.not_eq_true]
  · exact (Run.activate_raised_iff 1).2 (hfailed p hp)

/-- The sample team beside one whose document declares nothing. -/
def mixedSession : List Operation :=
  [.putDocument (sampleDocument [] []), .putDocument (.obj [("team", .obj [("id", .str "bare")])])]

/-- Of the sample team and one whose document declares nothing, the first is activated, and the
failure of the second is collected. -/
theorem activateAll_collects_mixed :
    let s := ({} : System).through mixedSession
    ∃ done failures t, Run.activateAll s = .ok (done, failures) t ∧
      "t" ∈ done.map (·.team) ∧ "bare" ∈ failures.keys := by
  have hkeyed : (({} : System).through mixedSession).source.Keyed :=
    (System.Recorded.through ⟨(System.new_default {}).source, Registry.records_nil rfl rfl⟩
      (by decide : ∀ op ∈ mixedSession, op.isOnDocuments)).keyed
  have hchecks : (({} : System).through mixedSession).source.teamIds = ["bare", "t"] ∧
      ∀ team ∈ ["bare", "t"],
        ((({} : System).through mixedSession).source.check team).isOk = true := by decide +kernel
  have hbuilds : (({} : System).through mixedSession).source.builds "t" = true ∧
      (({} : System).through mixedSession).source.builds "bare" = false := by decide +kernel
  generalize ({} : System).through mixedSession = s at hkeyed hchecks hbuilds
  obtain ⟨hteams, hchecks⟩ := hchecks
  have harmless : s.source.Harmless := by
    refine harmless_iff_check.2 fun team hteam => ?_
    have hcheck := hchecks team (hteams ▸ hteam)
    cases hreport : s.source.check team with
    | ok report => exact ⟨report, rfl⟩
    | error d => simp [hreport, Except.isOk, Except.toBool] at hcheck
  obtain ⟨done, failures, t, hrun, hdone, hfailed, -⟩ := activateAll_collects hkeyed harmless
  refine ⟨done, failures, t, hrun, (hdone "t").2 ?_, (hfailed "bare").2 ?_⟩
  · rw [Run.activate_ok_iff]
    exact ⟨by simp [hteams], hbuilds.1⟩
  · rw [Run.activate_ok_iff]
    exact ⟨by simp [hteams], by simp [hbuilds.2]⟩

/-- The document of a team "a" with one stage, of which a field and the metrics are given. -/
def strayDocument (stage : Fields) (metrics : List Json) : Json := .obj [
  ("team", .obj [("id", .str "a")]),
  ("stages", .arr [.obj (("id", .str "only") :: stage)]),
  ("statuses", .arr [.obj [("id", .str "A"), ("stage_id", .str "only")]]),
  ("metrics", .arr metrics)]

/-- A document of the team "a" before the sample team's, which would be activated on its own:
activating every team raises what is wrong with the first, and the sample team is not activated. -/
def StopsSample (raw : Json) : Prop :=
  let s := ({} : System).through [.putDocument raw, .putDocument (sampleDocument [] [])]
  s.source.teamIds = ["a", "t"] ∧ (∃ w t, Run.activate "t" s = .ok w t) ∧
    ∃ fault t, Run.activateAll s = .error (.raised fault) t ∧
      t.registry.activeFor "t" = .error (.notActive "t")

/-- `StopsSample`, as it is computed. -/
theorem stopsSample_of {raw : Json}
    (h : let s := ({} : System).through [.putDocument raw, .putDocument (sampleDocument [] [])]
      s.source.teamIds = ["a", "t"] ∧ s.source.builds "t" ∧
        Run.activateAll.raises s fun t => (t.registry.active.get? "t").isNone) :
    StopsSample raw := by
  obtain ⟨hteams, hbuilds, hraises⟩ := h
  obtain ⟨fault, t, hrun, hmissing⟩ := Run.raises_iff.1 hraises
  refine ⟨hteams, Run.activate_ok_iff.2 hbuilds, fault, t, hrun, ?_⟩
  simp [Registry.activeFor, Option.isNone_iff_eq_none.1 hmissing]

/-- An entry status that cannot be looked up keeps the other team from being activated, and so does
a limit that is too large a number. -/
theorem activateAll_stopped :
    StopsSample (strayDocument [("entry_status", .arr [.str "A"])] []) ∧
      StopsSample (strayDocument [] [.obj [("id", .str "slow"), ("metric", .str "cycle_time"),
        ("threshold", .int (Int.pow 10 400))]]) :=
  ⟨stopsSample_of (by decide +kernel), stopsSample_of (by decide +kernel)⟩

end Stageflow
