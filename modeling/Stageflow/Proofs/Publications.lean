import Mathlib.Logic.Relation
import Stageflow.Proofs.Evolution.Session
import Stageflow.Proofs.Outcomes
import Stageflow.System.Answers

/-!
# What edits and activations come to

Editing documents and activating teams changes the documents, the notes and the registry, and
nothing else of a system. What changes in the registry is that next versions are published. Nothing
hangs on the way.
-/

namespace Stageflow

/-- Whether a notice is about a document. -/
def Notice.isOfDocument : Notice → Bool
  | .resolutionFailed .. | .validationFailed .. | .quality .. | .notActivated .. => true
  | _ => false

/-- Whether a registry becomes another one by publishing the next version of one of some teams. -/
def Registry.Publishes (teams : String → Prop) (registry registry' : Registry) : Prop :=
  ∃ w, teams w.team ∧ w.version = registry.nextVersion w.team ∧ registry' = registry.publish w

/-- Whether a system becomes another one by edits of its documents, notes, and publications for some
teams. -/
structure System.Prepares (teams : String → Prop) (s t : System) : Prop where
  keyed : t.source.Keyed
  published : Relation.ReflTransGen (Registry.Publishes teams) s.registry t.registry
  noted : ∃ notices, t.journal = notices ++ s.journal ∧ ∀ notice ∈ notices, notice.isOfDocument
  rest : t = { s with
    source := t.source, shelf := t.shelf, documentVersions := t.documentVersions
    registry := t.registry, journal := t.journal }

namespace System.Prepares

variable {teams : String → Prop} {s t : System}

theorem refl (keyed : s.source.Keyed) : s.Prepares teams s :=
  ⟨keyed, .refl, ⟨[], rfl, by simp⟩, rfl⟩

theorem edit (h : s.Prepares teams t) {change : Source → Source}
    (hchange : ∀ source : Source, source.Keyed → (change source).Keyed) :
    s.Prepares teams (t.edit change) := by
  obtain ⟨keyed, published, noted, rest⟩ := h
  unfold System.edit
  split
  · exact ⟨keyed, published, noted, by rw [rest]⟩
  · exact ⟨hchange _ keyed, published, noted, by rw [rest]⟩

theorem notes (h : s.Prepares teams t) {new : List Notice}
    (hnew : ∀ notice ∈ new, notice.isOfDocument) :
    s.Prepares teams { t with journal := new ++ t.journal } := by
  obtain ⟨notices, hjournal, hnotices⟩ := h.noted
  refine ⟨h.keyed, h.published, ⟨new ++ notices, ?_, ?_⟩, by rw [h.rest]⟩
  · rw [hjournal, List.append_assoc]
  · exact List.forall_mem_append.2 ⟨hnew, hnotices⟩

theorem note (h : s.Prepares teams t) {notice : Notice} (hnotice : notice.isOfDocument) :
    s.Prepares teams { t with journal := notice :: t.journal } :=
  h.notes (List.forall_mem_singleton.2 hnotice)

end System.Prepares

namespace Run

variable {teams : String → Prop} {s₀ s : System} {H : System → Prop}

theorem prepares_note {notice : Notice} (h : notice.isOfDocument) :
    Stays (s₀.Prepares teams) H (note notice) :=
  .modify fun _ hs => hs.note h

theorem prepares_storeDocument (document : TeamDocument) (version : Int) :
    Stays (s₀.Prepares teams) H (storeDocument document version) := by
  refine .modify fun s hs => ?_
  have hedit : s₀.Prepares teams (s.edit (·.putDocument document)) :=
    hs.edit fun _ h => keyed_putDocument h document
  exact ⟨hedit.keyed, hedit.published, hedit.noted, by rw [hedit.rest]⟩

theorem prepares_putDocument (raw : Json) : Stays (s₀.Prepares teams) H (putDocument raw) :=
  .bind .ofReading fun _ => .bind .get fun _ => .bind (prepares_storeDocument _ _) fun _ => .pure

theorem prepares_saveDocument (raw : Json) (expected : Int) :
    Stays (s₀.Prepares teams) H (saveDocument raw expected) := by
  refine .bind .ofReading fun document => .bind .get fun s => ?_
  dsimp only
  split
  · exact .raise
  · exact .bind (prepares_storeDocument _ _) fun _ => .pure

theorem prepares_putFragment (name : String) (fragment : Json) :
    Stays (s₀.Prepares teams) H (putFragment name fragment) :=
  .modify fun _ hs => hs.edit fun _ h => h

theorem ends_resolve (hs : s₀.Prepares teams s) (document : TeamDocument) :
    Ends (s₀.Prepares teams) H (resolve document) s fun merged t =>
      t = s ∧ merged.team = document.id := by
  simp only [resolve, ends_bind, ends_get]
  split
  · rename_i merged hmerged
    exact ⟨rfl, team_resolve hmerged⟩
  · exact hs.note rfl
  · exact hs

theorem ends_compile (hs : s₀.Prepares teams s) (merged : MergedDocument) (version : Int) :
    Ends (s₀.Prepares teams) H (compile merged version) s fun w t =>
      s₀.Prepares teams t ∧ t.registry = s.registry ∧ w.team = merged.team ∧
        w.version = version := by
  unfold compile
  split
  · rename_i w hw
    obtain ⟨hteam, hversion⟩ := compile_names hw
    simp only [ends_bind, ends_pure]
    rw [Ends, forM_note]
    exact ⟨hs.notes (by simp [Notice.isOfDocument]), rfl, hteam, hversion⟩
  · exact hs.note rfl
  · exact hs

/-- An activation publishes the next version of its team, or nothing. -/
theorem prepares_activate {team : String} (hteam : teams team) :
    Stays (s₀.Prepares teams) H (activate team) := by
  intro s hs
  simp only [activate, draft, issue, ends_bind, ends_get]
  cases hdocument : s.source.document? team with
  | none => exact hs
  | some document =>
    refine (ends_resolve hs document).mono ?_
    rintro merged t ⟨rfl, hmerged⟩
    refine (ends_compile hs merged _).mono ?_
    rintro w t' ⟨ht, hregistry, hcompiled, hversion⟩
    simp only [ends_modify, ends_pure]
    have hw : w.team = team := (hcompiled.trans hmerged).trans (hs.keyed team document hdocument)
    have hnext : w.version = t'.registry.nextVersion w.team := by rw [hversion, hregistry, hw]
    exact ⟨ht.keyed, ht.published.tail ⟨w, hw ▸ hteam, hnext, rfl⟩, ht.noted, by rw [ht.rest]⟩

theorem prepares_activateTeams {names : List String} (hteams : ∀ team ∈ names, teams team) :
    Stays (s₀.Prepares teams) H (activateTeams names) := by
  induction names with
  | nil => exact .pure
  | cons team rest ih =>
    obtain ⟨hteam, hrest⟩ := List.forall_mem_cons.1 hteams
    refine .bind (.attempt (prepares_activate hteam)) fun result => ?_
    split
    · exact .bind (ih hrest) fun _ => .pure
    · split
      · exact .bind (prepares_note rfl) fun _ => .bind (ih hrest) fun _ => .pure
      · exact .raise

theorem prepares_activateAll (hteams : ∀ team, teams team) :
    Stays (s₀.Prepares teams) H activateAll :=
  .bind .get fun _ => prepares_activateTeams fun team _ => hteams team

theorem prepares_check (team : String) : Stays (s₀.Prepares teams) H (check team) := by
  refine .bind .get fun s => .bind ?_ fun _ => .ofReading
  unfold Source.checkNotice?
  split
  · exact .pure
  · split
    · exact prepares_note rfl
    · exact .pure

end Run

namespace Operation

/-- Whether an operation edits, activates or checks documents. -/
def isOnDocuments : Operation → Bool
  | .putDocument _ | .saveDocument .. | .putFragment .. | .activate _ | .activateAll
  | .check _ => true
  | _ => false

/-- Operations on documents change nothing but the documents, the notes and the registry. -/
theorem prepares_answer {s : System} {H : System → Prop} {op : Operation} (h : op.isOnDocuments)
    (announce : Event → Run Unit) :
    Run.Stays (s.Prepares fun _ => True) H (op.answer announce) := by
  cases op with
  | putDocument raw => exact .bind (Run.prepares_putDocument raw) fun _ => .pure
  | saveDocument raw expected => exact .bind (Run.prepares_saveDocument raw expected) fun _ => .pure
  | putFragment name fragment =>
    exact .bind (Run.prepares_putFragment name fragment) fun _ => .pure
  | activate team => exact .bind (Run.prepares_activate trivial) fun _ => .pure
  | activateAll => exact .bind (Run.prepares_activateAll fun _ => trivial) fun _ => .pure
  | check team => exact .bind (Run.prepares_check team) fun _ => .pure
  | _ => cases h

theorem prepares_perform {s : System} {op : Operation} (h : op.isOnDocuments)
    (keyed : s.source.Keyed) : s.Prepares (fun _ => True) (op.perform.after s) := by
  rw [after_perform]
  have hrun : Run.Stays (s.Prepares fun _ => True) (fun _ => False) (op.answer Run.publish) :=
    prepares_answer h Run.publish
  exact (hrun s (.refl keyed)).after fun _ => False.elim

end Operation

end Stageflow
