import Stageflow.Proofs.Activations
import Stageflow.Proofs.Publications
import Stageflow.System.Vault

/-!
# Activations over a store

An activation that cannot build a version changes nothing but the journal. One that can has taken it
into memory by the time the store is handed it. Over a store that takes all versions that is a
success. A store that refuses one makes the activation fail, but does not undo it. Over the store in
memory sessions on documents are those of a system.

## Main statements

* `Vaulted.activate_taken` — an activation over a store that takes all versions.
* `Vaulted.published_of_refused` — what an activation leaves that its store refuses.
* `Vaulted.through_ofSystem` — sessions over the store in memory.
-/

namespace Stageflow

namespace Run

/-- What is made of the value of a computation does not change the state after it. -/
theorem after_bind_pure {α β : Type} (action : Run α) (f : α → β) (s : System) :
    (action >>= fun a => pure (f a)).after s = action.after s := by
  unfold after
  rw [bind_apply]
  cases action s <;> rfl

/-- Saving a document stores it if its stored version is the expected one. -/
theorem saveDocument_apply (raw : Json) (expected : Int) (s : System) :
    saveDocument raw expected s =
      match TeamDocument.parse raw with
      | .ok document =>
        if documentVersion s document.id = expected then
          .ok (expected + 1) ((storeDocument document (expected + 1)).after s)
        else
          .error (.raised (.stale document.id expected (documentVersion s document.id))) s
      | .error d => .error (.raised (.defect d)) s := by
  unfold saveDocument
  cases TeamDocument.parse raw with
  | error d => rfl
  | ok document =>
    change (ite (documentVersion s document.id ≠ expected) _ _ : Run Int) s =
      ite (documentVersion s document.id = expected) _ _
    by_cases hcurrent : documentVersion s document.id = expected
    · rw [if_neg (not_not.2 hcurrent), if_pos hcurrent]
      rfl
    · rw [if_pos hcurrent, if_neg hcurrent]
      rfl

/-- Compiling does not look at the saved copies. -/
theorem compile_withSaved (merged : MergedDocument) (version : Int) (s : System)
    (saved : Versions) :
    compile merged version (s.withSaved saved) =
      match compile merged version s with
      | .ok w t => .ok w (t.withSaved saved)
      | .error halt t => .error halt (t.withSaved saved) := by
  unfold compile
  cases merged.compile version with
  | ok w => simp only [bind_apply, forM_note]; rfl
  | error fault => cases fault <;> rfl

/-- Taking the next version into memory does not look at the saved copies. -/
theorem renew_withSaved (team : String) (s : System) (saved : Versions) :
    renew team (s.withSaved saved) =
      match renew team s with
      | .ok w t => .ok w (t.withSaved saved)
      | .error halt t => .error halt (t.withSaved saved) := by
  have hsource : (s.withSaved saved).source = s.source := rfl
  have hnext : (s.withSaved saved).registry.nextVersion team = s.registry.nextVersion team := rfl
  unfold renew draft
  rw [bind_apply, get_bind_apply, hsource, bind_apply, get_bind_apply]
  cases s.source.document? team with
  | none => rfl
  | some document =>
    dsimp only
    rw [resolve_apply, resolve_apply, hsource]
    cases s.source.resolve document with
    | error unresolved => cases unresolved <;> rfl
    | ok merged =>
      dsimp only
      rw [get_bind_apply, get_bind_apply, bind_apply, bind_apply, hnext, compile_withSaved]
      cases compile merged (s.registry.nextVersion team) s <;> rfl

end Run

namespace Vaulted

/-! ## Stores that take and stores that refuse -/

section

variable {σ : Type} {vault : Option (Vault σ)} {d : Vaulted σ}

/-- An activation takes the next version into memory that is built of the team, and hands it over.
If none is built, it raises what is in the way and changes nothing but the journal. -/
theorem activate_apply (vault : Option (Vault σ)) (d : Vaulted σ) (team : String) :
    ∃ notices, activate vault d team =
      match d.system.source.build team (d.system.registry.nextVersion team) with
      | .ok w =>
        let system := { d.system with
          registry := d.system.registry.enter w, journal := notices ++ d.system.journal }
        match handOver vault w d.held with
        | (.ok (), held) => (.ok w, { system, held })
        | (.error fault, held) => (.error (.raised fault), { system, held })
      | .error fault =>
        (.error (.raised fault), { d with system.journal := notices ++ d.system.journal }) := by
  obtain ⟨notices, hrenew⟩ := Run.renew_apply team d.system
  refine ⟨notices, ?_⟩
  unfold activate
  rw [hrenew]
  cases d.system.source.build team (d.system.registry.nextVersion team) <;> rfl

/-- An activation that its store refuses fails, but the version is published all the same: it is in
memory, and active. -/
theorem published_of_refused {team : String} {w : Workflow} {fault : Fault}
    (built : d.system.source.build team (d.system.registry.nextVersion team) = .ok w)
    (refused : (handOver vault w d.held).1 = .error fault) :
    (activate vault d team).1 = .error (.raised fault) ∧
      (activate vault d team).2.system.registry = d.system.registry.enter w := by
  obtain ⟨notices, hactivate⟩ := activate_apply vault d team
  rcases hheld : handOver vault w d.held with ⟨taken, held⟩
  obtain rfl : taken = .error fault := by simpa [hheld] using refused
  simp only [hactivate, built, hheld, and_self]

/-- A store that takes every version takes what it is handed. -/
theorem handOver_fst (takes : ∀ v ∈ vault, v.Takes) (w : Workflow) (held : σ) :
    (handOver vault w held).1 = .ok () := by
  cases vault with
  | none => rfl
  | some v => exact takes v rfl w held

/-- An activation over a store that takes every version succeeds with what it builds. -/
theorem activate_taken (takes : ∀ v ∈ vault, v.Takes) (d : Vaulted σ) (team : String) :
    ∃ notices held, activate vault d team =
      match d.system.source.build team (d.system.registry.nextVersion team) with
      | .ok w =>
        (.ok w, ⟨{ d.system with
          registry := d.system.registry.enter w, journal := notices ++ d.system.journal }, held⟩)
      | .error fault =>
        (.error (.raised fault), { d with system.journal := notices ++ d.system.journal }) := by
  obtain ⟨notices, hactivate⟩ := activate_apply vault d team
  cases hbuild : d.system.source.build team (d.system.registry.nextVersion team) with
  | error fault => exact ⟨notices, d.held, by rw [hactivate, hbuild]⟩
  | ok w =>
    rcases hheld : handOver vault w d.held with ⟨taken, held⟩
    obtain rfl : taken = .ok () := by simpa [hheld] using handOver_fst takes w d.held
    exact ⟨notices, held, by simp only [hactivate, hbuild, hheld]⟩

end

/-! ## The store in memory -/

/-- An activation over the store in memory is that of the system. -/
theorem activate_ofSystem (s : System) (team : String) :
    activate (some .memory) (ofSystem s) team =
      match Run.activate team s with
      | .ok w t => (.ok w, ofSystem t)
      | .error halt t => (.error halt, ofSystem t) := by
  unfold activate
  rw [Run.activate_eq_renew, Run.bind_apply, ofSystem, Run.renew_withSaved]
  obtain ⟨notices, hrenew⟩ := Run.renew_apply team s
  rw [hrenew]
  cases s.source.build team (s.registry.nextVersion team) <;> rfl

theorem activateTeams_ofSystem (s : System) (teams : List String) :
    activateTeams (some .memory) (ofSystem s) teams =
      ofSystem ((Run.activateTeams teams).after s) := by
  induction teams generalizing s with
  | nil => rfl
  | cons team rest ih =>
    unfold Run.after at ih ⊢
    rw [Run.activateTeams_cons]
    simp only [activateTeams, activate_ofSystem]
    cases Run.activate team s with
    | ok w t =>
      simp only [Run.map_apply, ih]
      cases Run.activateTeams rest t <;> rfl
    | error halt t =>
      cases halt with
      | hung => rfl
      | raised fault =>
        dsimp only
        split
        · simp only [Run.map_apply]
          refine (ih { t with journal := .notActivated team fault :: t.journal }).trans ?_
          cases Run.activateTeams rest _ <;> rfl
        · rfl

/-- Edits do not look at the saved copies. -/
theorem edit_withSaved (s : System) (saved : Versions) (change : Source → Source) :
    (s.withSaved saved).edit change = (s.edit change).withSaved saved ∧
      (s.edit change).registry = s.registry := by
  unfold System.edit System.withSaved
  split <;> simp_all

/-- Storing a document over the store in memory is that of the system. -/
theorem storeDocument_ofSystem (s : System) (document : TeamDocument) (version : Int) :
    { ofSystem s with system := (Run.storeDocument document version).after (s.withSaved []) } =
      ofSystem ((Run.storeDocument document version).after s) := by
  obtain ⟨hedit, hregistry⟩ := edit_withSaved s [] (·.putDocument document)
  change Vaulted.mk { (s.withSaved []).edit _ with documentVersions := _ } s.registry.saved = _
  rw [hedit, ← hregistry]
  rfl

/-- An operation on documents over the store in memory is that of the system. -/
theorem perform_ofSystem (s : System) {op : Operation} (documents : op.isOnDocuments) :
    perform (some .memory) (ofSystem s) op = ofSystem (op.perform.after s) := by
  cases op with
  | activate team =>
    rw [perform, activate_ofSystem, Operation.perform, Run.after_bind_pure, Run.after]
    cases Run.activate team s <;> rfl
  | activateAll =>
    rw [Operation.perform, Run.after_bind_pure]
    exact activateTeams_ofSystem s s.source.teamIds
  | putDocument raw =>
    simp only [perform, Operation.perform, Run.after_bind_pure]
    unfold Run.putDocument
    cases TeamDocument.parse raw with
    | error d => rfl
    | ok document => exact storeDocument_ofSystem s document _
  | saveDocument raw expected =>
    simp only [perform, Operation.perform, Run.after_bind_pure]
    simp only [Run.after, Run.saveDocument_apply]
    cases TeamDocument.parse raw with
    | error d => rfl
    | ok document =>
      have hversion : Run.documentVersion (ofSystem s).system document.id =
          Run.documentVersion s document.id := rfl
      by_cases hcurrent : Run.documentVersion s document.id = expected
      · simp only [hversion, hcurrent, if_true]
        exact storeDocument_ofSystem s document _
      · simp only [hversion, hcurrent, if_false]
  | putFragment name fragment =>
    obtain ⟨hedit, hregistry⟩ := edit_withSaved s [] (·.putFragment name fragment)
    change Vaulted.mk ((s.withSaved []).edit _) s.registry.saved = ofSystem (s.edit _)
    rw [ofSystem, hedit, hregistry]
  | check team =>
    simp only [perform, Operation.perform, Run.after_bind_pure]
    unfold Run.check Run.after
    simp only [Run.get_bind_apply]
    have : (s.withSaved []).source = s.source := rfl
    simp only [ofSystem, this]
    cases s.source.checkNotice? team <;> cases s.source.check team <;> rfl
  | _ => cases documents

/-- A session on documents over the store in memory is that of the system. -/
theorem through_ofSystem (s : System) {ops : List Operation}
    (documents : ∀ op ∈ ops, op.isOnDocuments) :
    through (some .memory) (ofSystem s) ops = ofSystem (s.through ops) := by
  induction ops generalizing s with
  | nil => rfl
  | cons op ops ih =>
    obtain ⟨hop, hops⟩ := List.forall_mem_cons.1 documents
    rw [through, List.foldl_cons, perform_ofSystem s hop]
    exact ih (op.perform.after s) hops

end Vaulted

end Stageflow
