import Stageflow.Proofs.Evolution.Session
import Stageflow.Proofs.Regimes.Cascade

/-!
# How regimes stand in sessions

What is asked for from outside while no action is in progress keeps a regime standing, if it may be
asked for in every such setting. So a regime that stands in a system at first stands after every
session of such operations.
-/

namespace Stageflow

open Run

variable {κ : Type} {R : Regime κ} {k : κ} {s₀ s : System}

/-- What holds of all versions, and of one that is published, holds of all versions then. -/
theorem Registry.forall_version?_publish {P : Workflow → Prop} {registry : Registry} {w : Workflow}
    (hw : P w) (h : ∀ team version found, registry.version? team version = some found → P found)
    (team : String) (version : Int) (found : Workflow)
    (hfound : (registry.publish w).version? team version = some found) : P found := by
  by_cases hkey : (team, version) = (w.team, w.version)
  · simp only [version?, Registry.publish, hkey, Table.get?_put_self] at hfound
    cases hfound
    exact hw
  · simp only [version?, Registry.publish, Table.get?_put_of_ne hkey] at hfound
    exact h team version found hfound

namespace Regime

/-! ## Documents -/

section

variable (lawful : R.Lawful)
include lawful

theorem After.edit (h : R.After k s₀ s) {change : Source → Source}
    (edited : ∀ source : Source, source.Edited (change source)) : R.After k s₀ (s.edit change) := by
  unfold System.edit
  split
  · exact h.beside lawful ⟨rfl, .same, rfl, rfl, rfl, rfl⟩ fun _ hp => hp
  · exact h.beside lawful ⟨rfl, edited _, rfl, rfl, rfl, rfl⟩ fun _ hp => hp

/-- A document that was read is stored. -/
theorem keeps_storeDocument {raw : Json} {document : TeamDocument} {version : Int}
    (read : TeamDocument.parse raw = .ok document) :
    Keeps (R.After k s₀) (storeDocument document version) :=
  .modify fun _ hs => (hs.edit lawful fun _ => .document read).beside lawful
    ⟨rfl, .same, rfl, rfl, rfl, rfl⟩ fun _ hp => hp

theorem keeps_putDocument {raw : Json} : Keeps (R.After k s₀) (putDocument raw) := by
  intro s h
  simp only [putDocument, leads_bind, leads_ofReading]
  split
  · rename_i document read
    simp only [leads_get, leads_pure]
    exact keeps_storeDocument lawful read s h
  · exact h

theorem keeps_saveDocument {raw : Json} {expected : Int} :
    Keeps (R.After k s₀) (saveDocument raw expected) := by
  intro s h
  simp only [saveDocument, leads_bind, leads_ofReading]
  split
  · rename_i document read
    simp only [leads_get]
    split
    · exact h
    · simp only [leads_bind, leads_pure]
      exact keeps_storeDocument lawful read s h
  · exact h

/-! ## Activation -/

theorem leads_resolve (h : R.After k s₀ s) (document : TeamDocument) :
    Leads (R.After k s₀) (resolve document) s fun merged t =>
      t = s ∧ s.source.resolve document = .ok merged := by
  simp only [resolve, leads_bind, leads_get]
  split
  · rename_i merged hmerged
    exact ⟨rfl, hmerged⟩
  · exact keeps_note lawful rfl s h
  · exact h

theorem leads_compile (h : R.After k s₀ s) (merged : MergedDocument) (version : Int) :
    Leads (R.After k s₀) (compile merged version) s fun w t =>
      R.After k s₀ t ∧ t.source = s.source ∧ merged.compile version = .ok w := by
  unfold compile
  split
  · rename_i w hw
    have hnoted : Leads (R.After k s₀) (w.warnings.forM fun warning =>
        note (.quality merged.team warning)) s fun _ t => R.After k s₀ t :=
      keeps_forM_note lawful (fun _ => rfl) s h
    simp only [leads_bind, leads_pure]
    rw [Leads, forM_note] at hnoted ⊢
    exact ⟨hnoted, rfl, hw⟩
  · exact leads_bind.2 (keeps_note lawful rfl s h)
  · exact h

/-- What is activated is compiled from the document of the team, once it is resolved. -/
theorem keeps_activate {team : String} : Keeps (R.After k s₀) (activate team) := by
  intro s h
  simp only [activate, draft, issue, leads_bind, leads_get]
  cases hdocument : s.source.document? team with
  | none => exact h
  | some document =>
    refine (leads_resolve lawful h document).mono ?_
    rintro merged _ ⟨rfl, hmerged⟩
    refine (leads_compile lawful h merged _).mono ?_
    rintro w t ⟨ht, hsource, hcompiled⟩
    rw [← hsource] at hdocument hmerged
    simp only [leads_modify, leads_pure]
    have hversion := (compile_names hcompiled).2
    exact ⟨⟨lawful.published ht.stands.holds hdocument hmerged (hversion.symm ▸ hcompiled),
      ht.stands.keyed, ht.stands.armed⟩, ht.follows.journal, ht.follows.rules⟩

theorem keeps_activateTeams {teams : List String} :
    Keeps (R.After k s₀) (activateTeams teams) := by
  induction teams with
  | nil => exact .pure
  | cons team rest ih =>
    refine .bind (.attempt (keeps_activate lawful)) fun result => ?_
    split
    · exact .bind ih fun _ => .pure
    · split
      · exact .bind (keeps_note lawful rfl) fun _ => .bind ih fun _ => .pure
      · exact .raise

/-! ## The rest -/

theorem keeps_check {team : String} : Keeps (R.After k s₀) (check team) := by
  refine .bind .get fun s => .bind ?_ fun _ => .ofReading
  unfold Source.checkNotice?
  split
  · exact .pure
  · split
    · exact keeps_note lawful rfl
    · exact .pure

theorem keeps_disarm {item : String} {rule : Option String} :
    Keeps (R.After k s₀) (disarm item rule) := by
  refine .get_bind fun s h => ?_
  have hleft : R.After k s₀ { s with automation := { s.automation with
      watches := s.automation.watches.select fun key _ => !Watches.isOf item rule key } } :=
    h.beside lawful ⟨rfl, .same, rfl, rfl, rfl, rfl⟩ fun _ hp => (List.mem_filter.1 hp).1
  have hnotes : Keeps (R.After k s₀)
      ((s.automation.watches.select fun key _ => Watches.isOf item rule key).values.forM
        fun watch => note (.disarmed watch)) := keeps_forM_note lawful fun _ => rfl
  simp only [setWatches, changeAutomation, leads_bind, leads_modify, leads_pure]
  exact (hnotes _ hleft).mono fun _ _ ht => ht

theorem keeps_advance {seconds : Json} : Keeps (R.After k s₀) (advance seconds) :=
  .bind .get fun _ => .bind .ofReading fun _ =>
    .bind (keeps_modify lawful (fun _ => ⟨rfl, .same, rfl, rfl, rfl, rfl⟩) fun _ => rfl)
      fun _ => .pure

end

/-! ## Operations -/

/-- Whether an operation may be asked for in a setting. -/
def Admits (R : Regime κ) (k : κ) : Operation → Prop
  | .create request => R.level k request.actor.depth
  | .move _ _ actor => R.level k actor.depth
  | .ingest signal => R.hears k (.signal signal)
  | .deliver event _ | .publish event => R.hears k event
  | .act context _ => R.level k context.depth
  | .checkThresholds _ _ depth => R.level k depth
  | _ => True

variable (lawful : R.Lawful)
include lawful

/-- Every operation but those that change the setting keeps a regime standing in its setting. -/
theorem keeps_perform {op : Operation} (idle : R.idle k) (admits : R.Admits k op)
    (hcreate : ∀ request, op ≠ .create request)
    (hmigrate : ∀ id version, op ≠ .migrate id version) :
    Keeps (R.After k s₀) op.perform := by
  have ha := announces_publish lawful
  cases op with
  | create request => exact absurd rfl (hcreate request)
  | move item target actor => exact .bind (keeps_moveItem lawful ha _ _ admits) fun _ => .pure
  | signOff item stage role approver => exact .bind (keeps_signOff lawful) fun _ => .pure
  | setCriterion item criterion satisfied =>
    exact .bind (keeps_setCriterion lawful) fun _ => .pure
  | migrate item version => exact absurd rfl (hmigrate item version)
  | choices item => exact .bind (keeps_choicesOf lawful) fun _ => .pure
  | gate item stage => exact .bind (keeps_gateOf lawful) fun _ => .pure
  | ingest signal => exact keeps_ingest lawful ha admits
  | deliver event subscriber => exact keeps_deliver lawful ha admits
  | publish event => exact ha k s₀ event admits
  | tick time => exact .bind (keeps_tick lawful ha idle) fun _ => .pure
  | disarm item rule => exact .bind (keeps_disarm lawful) fun _ => .pure
  | act context actions =>
    exact .bind (keeps_runActions lawful ha (.requested idle admits) actions) fun _ => .pure
  | checkThresholds time items depth =>
    exact .bind (keeps_checkThresholds lawful ha admits) fun _ => .pure
  | advance seconds => exact .bind (keeps_advance lawful) fun _ => .pure
  | putDocument raw => exact .bind (keeps_putDocument lawful) fun _ => .pure
  | saveDocument raw expected => exact .bind (keeps_saveDocument lawful) fun _ => .pure
  | putFragment name fragment =>
    exact .modify fun _ hs => hs.edit lawful fun _ => .fragment name fragment
  | activate team => exact .bind (keeps_activate lawful) fun _ => .pure
  | activateAll =>
    exact .bind (.bind .get fun _ => keeps_activateTeams lawful) fun _ => .pure
  | check team => exact .bind (keeps_check lawful) fun _ => .pure
  | startEvaluator =>
    refine .bind .get fun s => ?_
    split
    · exact keeps_note lawful rfl
    · exact keeps_modify lawful (fun _ => ⟨rfl, .same, rfl, rfl, rfl, rfl⟩) fun _ => rfl
  | stopEvaluator =>
    exact keeps_modify lawful (fun _ => ⟨rfl, .same, rfl, rfl, rfl, rfl⟩) fun _ => rfl

/-- Every operation leaves a regime standing, in the old setting or in a new one. -/
theorem rests_perform {op : Operation} (admits : ∀ k, R.idle k → R.Admits k op)
    (h : R.Rests s₀ s) : R.Rests s₀ (op.perform.after s) := by
  obtain ⟨k, idle, h⟩ := h
  have ha := announces_publish lawful
  refine Leads.after (I := R.Rests s₀) ?_
  by_cases hcreate : ∃ request, op = .create request
  · obtain ⟨request, rfl⟩ := hcreate
    simp only [Operation.perform, leads_bind, leads_pure]
    exact leads_createItem lawful ha h idle (admits k idle)
  by_cases hmigrate : ∃ id version, op = .migrate id version
  · obtain ⟨id, version, rfl⟩ := hmigrate
    simp only [Operation.perform, leads_bind, leads_pure]
    exact leads_migrate lawful h idle
  · have hkeeps : Keeps (R.After k s₀) op.perform :=
      keeps_perform lawful idle (admits k idle) (fun request heq => hcreate ⟨request, heq⟩)
        fun id version heq => hmigrate ⟨id, version, heq⟩
    exact ((hkeeps s h).weaken fun _ ht => ⟨k, idle, ht⟩).mono fun _ _ ht => ⟨k, idle, ht⟩

/-- A regime stands after every session. -/
theorem stands_through {ops : List Operation}
    (admits : ∀ op ∈ ops, ∀ k, R.idle k → R.Admits k op) (idle : R.idle k) (h : R.Stands k s) :
    ∃ k, R.idle k ∧ R.Stands k (s.through ops) := by
  -- Operations may change the setting, so that what each of them keeps is to rest.
  suffices hrests : ∀ t, R.Rests s t → R.Rests s (t.through ops) by
    obtain ⟨k', idle', h'⟩ := hrests s ⟨k, idle, .refl h⟩
    exact ⟨k', idle', h'.stands⟩
  induction ops with
  | nil => exact fun _ ht => ht
  | cons op ops ih =>
    intro t ht
    exact ih (fun op' hop => admits op' (by simp [hop])) _
      (rests_perform lawful (admits op (by simp)) ht)

end Regime

/-- In a new system with nothing noted yet, a regime stands that holds of it. -/
theorem System.New.stands (new : s.New) (holds : R.holds k s) : R.Stands k s where
  holds := holds
  keyed := new.sound.items
  armed := by simp [new.watches]

end Stageflow
