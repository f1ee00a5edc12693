import Stageflow.Proofs.VersionHistories
import Stageflow.System.Press

/-!
# Versions and the documents behind them

Activations that overlap publish their versions in one order and may have read their documents in
another one. Each version is made of the document that its own activation read, and documents are
read in the order in which the team has had them; so the order of the versions is that of the
documents as far as it is that of the readings.

## Main statements

* `Press.Kept.turn` — what every turn keeps.
* `versions_follow_readings` — the versions after any turns, and the documents behind them.
-/

namespace Stageflow

open Run

variable {team : String} {p : Press} {s : System} {draft : Draft}

/-! ## Turns of an activation -/

namespace Run

/-- The document of a team is drafted without a change of the system, or it does not resolve, which
may leave a note. -/
theorem draft_apply (team : String) (s : System) :
    (∃ document merged, s.source.document? team = some document ∧
      s.source.resolve document = .ok merged ∧ Run.draft team s = .ok merged s) ∨
    ∃ fault journal, Run.draft team s = .error (.raised fault) { s with journal } := by
  unfold Run.draft
  rw [get_bind_apply]
  cases hdocument : s.source.document? team with
  | none => exact .inr ⟨_, s.journal, rfl⟩
  | some document =>
    simp only [resolve_apply]
    cases hresolve : s.source.resolve document with
    | ok merged => exact .inl ⟨document, merged, rfl, hresolve, rfl⟩
    | error unresolved => cases unresolved <;> exact .inr ⟨_, _, rfl⟩

/-- A draft is published as the next version, or it does not compile and only leaves notes. -/
theorem issue_apply (team : String) (merged : MergedDocument) (s : System) :
    ∃ notices,
      (∃ w, merged.compile (s.registry.nextVersion team) = .ok w ∧ issue team merged s =
        .ok w { s with registry := s.registry.publish w, journal := notices ++ s.journal }) ∨
      ∃ fault, issue team merged s =
        .error (.raised fault) { s with journal := notices ++ s.journal } := by
  obtain ⟨notices, hcompile⟩ := compile_apply merged (s.registry.nextVersion team) s
  refine ⟨notices, ?_⟩
  unfold issue
  rw [get_bind_apply, bind_apply, hcompile]
  cases merged.compile (s.registry.nextVersion team) with
  | ok w => exact .inl ⟨w, rfl, rfl⟩
  | error fault => cases fault <;> exact .inr ⟨_, rfl⟩

theorem edit_eq (shelf : s.shelf = none) (change : Source → Source) :
    s.edit change = { s with source := change s.source } := by
  unfold System.edit
  split
  · rename_i heq
    simp [shelf] at heq
  · rfl

theorem putDocument_apply (raw : Json) (s : System) :
    putDocument raw s =
      match TeamDocument.parse raw with
      | .ok document =>
        .ok document { s.edit (·.putDocument document) with
          documentVersions :=
            s.documentVersions.put document.id (documentVersion s document.id + 1) }
      | .error d => .error (.raised (.defect d)) s := by
  unfold putDocument
  cases TeamDocument.parse raw <;> rfl

end Run

/-! ## What turns keep -/

/-- Whether a draft is what an activation has made of a document of a team: of the newest one of its
editions when it read. -/
structure Draft.IsOf (draft : Draft) (team : String) (editions : List TeamDocument)
    (readings : List Nat) : Prop where
  reading : readings[draft.reading]? = some draft.edition
  document : ∃ document, (editions.take draft.edition).getLast? = some document ∧
    draft.source.document? team = some document ∧
    draft.source.resolve document = .ok draft.merged

/-- What turns keep: the newest edition is the document of the team, editions are read in order, and
the registry holds the versions that were published, each made of its draft. -/
structure Press.Kept (p : Press) (team : String) : Prop where
  shelf : p.system.shelf = none
  named : ∀ document ∈ p.editions, document.id = team
  newest : p.system.source.document? team = p.editions.getLast?
  ordered : p.readings.Pairwise (· ≤ ·)
  bounded : ∀ edition ∈ p.readings, edition ≤ p.editions.length
  waiting : ∀ draft ∈ p.waiting, draft.IsOf team p.editions p.readings
  printed : ∀ print ∈ p.prints, print.draft.IsOf team p.editions p.readings
  compiled : ∀ (k : Nat) (print : Print), p.prints[k]? = some print →
    print.draft.merged.compile (k + 1) = .ok print.workflow
  records : p.system.registry.Records (p.prints.map fun print => (team, print.workflow))

namespace Press

/-- A draft stays what it is when other activations read and further editions come. -/
theorem Kept.mono (h : p.Kept team) {editions : List TeamDocument} {readings : List Nat}
    (heditions : p.editions <+: editions) (hreadings : p.readings <+: readings)
    (hdraft : draft.IsOf team p.editions p.readings) : draft.IsOf team editions readings := by
  obtain ⟨hreading, document, hdocument, hsource⟩ := hdraft
  obtain ⟨later, rfl⟩ := heditions
  obtain ⟨more, rfl⟩ := hreadings
  have hle := h.bounded _ (List.mem_of_getElem? hreading)
  obtain ⟨hlt, -⟩ := List.getElem?_eq_some_iff.1 hreading
  refine ⟨?_, document, ?_, hsource⟩
  · rw [List.getElem?_append_left hlt, hreading]
  · rw [List.take_append_of_le_length hle, hdocument]

theorem history_of_prints (team : String) (prints : List Print) :
    History.of (prints.map fun print => (team, print.workflow)) team =
      prints.map (·.workflow) := by
  simp [History.of, List.filter_map, Function.comp_def]

namespace Kept

theorem of_new (keyed : s.source.Keyed) (shelf : s.shelf = none)
    (versions : s.registry.versions = []) (active : s.registry.active = []) :
    (Press.of team s).Kept team where
  shelf
  named := by
    simpa [Press.of] using keyed team
  newest := by
    unfold Press.of
    cases s.source.document? team <;> rfl
  ordered := .nil
  bounded := by simp [Press.of]
  waiting := by simp [Press.of]
  printed := by simp [Press.of]
  compiled := by simp [Press.of]
  records := Registry.records_nil versions active

/-- Notes do not count, nor that an activation is over that has waited. -/
theorem notes (h : p.Kept team) (journal : List Notice) {waiting : List Draft}
    (hwaiting : waiting ⊆ p.waiting) :
    ({ p with system := { p.system with journal }, waiting } : Press).Kept team :=
  { h with waiting := fun draft hdraft => h.waiting draft (hwaiting hdraft) }

/-- A document that is stored for the team is its newest edition. -/
theorem edit (h : p.Kept team) (raw : Json) : (p.turn team (.edit raw)).Kept team := by
  rw [turn, putDocument_apply]
  cases TeamDocument.parse raw with
  | error d => exact h
  | ok document =>
    have hprefix : p.editions <+:
        if document.id = team then p.editions ++ [document] else p.editions := by
      split
      · exact List.prefix_append ..
      · exact List.prefix_rfl
    simp only [edit_eq h.shelf]
    refine { h with
      named := ?_
      newest := ?_
      bounded := fun edition hedition => Nat.le_trans (h.bounded edition hedition) hprefix.length_le
      waiting := fun draft hdraft => h.mono hprefix List.prefix_rfl (h.waiting draft hdraft)
      printed := fun print hprint => h.mono hprefix List.prefix_rfl (h.printed print hprint) }
    · have := h.named
      grind
    · by_cases hteam : document.id = team
      · subst hteam
        simp [Source.putDocument, Source.document?]
      · simp only [hteam, if_false, ← h.newest]
        simp [Source.putDocument, Source.document?, Table.get?_put_of_ne (Ne.symm hteam)]

/-- A reading of the newest edition comes after all others. -/
theorem reads (h : p.Kept team) (journal : List Notice) :
    ({ p with
      system := { p.system with journal }
      readings := p.readings ++ [p.editions.length] } : Press).Kept team :=
  { h with
    ordered := by
      simp only [List.pairwise_append, List.pairwise_singleton, List.mem_singleton, true_and]
      refine ⟨h.ordered, ?_⟩
      rintro edition hedition _ rfl
      exact h.bounded edition hedition
    bounded := by
      simp only [List.mem_append, List.mem_singleton]
      rintro edition (hedition | rfl)
      · exact h.bounded edition hedition
      · exact Nat.le_refl _
    waiting := fun draft hdraft =>
      h.mono List.prefix_rfl (List.prefix_append ..) (h.waiting draft hdraft)
    printed := fun print hprint =>
      h.mono List.prefix_rfl (List.prefix_append ..) (h.printed print hprint) }

theorem read (h : p.Kept team) : (p.turn team .read).Kept team := by
  rw [turn]
  obtain ⟨document, merged, hdocument, hresolve, hdraft⟩ | ⟨fault, journal, hdraft⟩ :=
    draft_apply team p.system
  · simp only [hdraft]
    have hkept := h.reads p.system.journal
    refine { hkept with waiting := ?_ }
    simp only [List.mem_append, List.mem_singleton]
    rintro draft (hold | rfl)
    · exact hkept.waiting draft hold
    · refine ⟨by simp, document, ?_, hdocument, hresolve⟩
      simp [← h.newest, hdocument]
  · simp only [hdraft]
    exact h.reads journal

/-- A draft that compiles is the next version of the team. -/
theorem publish (h : p.Kept team) (i : Nat) : (p.turn team (.publish i)).Kept team := by
  rw [turn]
  cases hi : p.waiting[i]? with
  | none => exact h
  | some draft =>
    have hwaiting : p.waiting.eraseIdx i ⊆ p.waiting := List.eraseIdx_subset
    obtain ⟨notices, ⟨w, hcompile, hissue⟩ | ⟨fault, hissue⟩⟩ :=
      issue_apply team draft.merged p.system
    · simp only [hissue]
      have hdraft := h.waiting draft (List.mem_of_getElem? hi)
      obtain ⟨document, hdocument, -, hresolve⟩ := hdraft.document
      have hnamed := h.named document (List.mem_of_mem_take (List.mem_of_getLast? hdocument))
      obtain ⟨hteam, hversion⟩ := compile_names hcompile
      have hw : w.team = team := (hteam.trans (team_resolve hresolve)).trans hnamed
      have hnext : p.system.registry.nextVersion team = p.prints.length + 1 := by
        rw [h.records.nextVersion_eq, history_of_prints, List.length_map]
      refine { h.notes (notices ++ p.system.journal) hwaiting with
        printed := ?_
        compiled := ?_
        records := ?_ }
      · simp only [List.mem_append, List.mem_singleton]
        rintro print (hprint | rfl)
        · exact h.printed print hprint
        · exact hdraft
      · intro k print hk
        obtain hk | ⟨rfl, rfl⟩ := Registry.getElem?_concat.1 hk
        · exact h.compiled k print hk
        · rw [← hnext]
          exact hcompile
      · simpa [hw] using h.records.publish (hversion.trans (by rw [hw]))
    · simp only [hissue]
      exact h.notes _ hwaiting

/-- Every turn keeps what turns keep. -/
theorem turn (h : p.Kept team) : ∀ t : Turn, (p.turn team t).Kept team
  | .edit raw => h.edit raw
  | .read => h.read
  | .publish i => h.publish i

theorem through (h : p.Kept team) (turns : List Turn) : (p.through team turns).Kept team := by
  unfold Press.through
  induction turns generalizing p with
  | nil => exact h
  | cons t rest ih => exact ih (h.turn t)

end Kept

/-- A turn that publishes no version leaves the registry as it is. -/
theorem Kept.registry_turn (h : p.Kept team) {t : Turn}
    (unpublished : (p.turn team t).prints = p.prints) :
    (p.turn team t).system.registry = p.system.registry := by
  cases t with
  | edit raw =>
    rw [Press.turn, putDocument_apply]
    cases TeamDocument.parse raw <;> simp [edit_eq h.shelf]
  | read =>
    rw [Press.turn]
    obtain ⟨document, merged, -, -, hdraft⟩ | ⟨fault, journal, hdraft⟩ := draft_apply team p.system
    all_goals simp only [hdraft]
  | publish i =>
    rw [Press.turn] at unpublished ⊢
    cases hi : p.waiting[i]? with
    | none => rfl
    | some draft =>
      simp only [hi] at unpublished ⊢
      obtain ⟨notices, ⟨w, -, hissue⟩ | ⟨fault, hissue⟩⟩ :=
        issue_apply team draft.merged p.system
      · simp [hissue] at unpublished
      · simp only [hissue]

/-! ## Activations that publish in the order of their readings -/

/-- Whether a turn does not publish before an activation that has read earlier and still waits. -/
def Turn.isFirstCome : Turn → Bool
  | .publish i => i == 0
  | _ => true

/-- The activations that have published have read in that order, and before those that wait. -/
def Queued (p : Press) : Prop :=
  ((p.prints.map (·.draft) ++ p.waiting).map (·.reading)).Pairwise (· < ·)

/-- Whatever has published, or still waits, has read before the next reading. -/
theorem Kept.reading_lt (h : p.Kept team)
    (hdraft : draft ∈ p.prints.map (·.draft) ++ p.waiting) :
    draft.reading < p.readings.length := by
  have hof : draft.IsOf team p.editions p.readings := by
    obtain hpublished | hwaits := List.mem_append.1 hdraft
    · obtain ⟨print, hprint, rfl⟩ := List.mem_map.1 hpublished
      exact h.printed print hprint
    · exact h.waiting draft hwaits
  exact (List.getElem?_eq_some_iff.1 hof.reading).1

theorem Queued.turn (h : p.Queued) (kept : p.Kept team) {t : Turn} (first : t.isFirstCome) :
    (p.turn team t).Queued := by
  cases t with
  | edit raw =>
    rw [Press.turn]
    cases putDocument raw p.system <;> exact h
  | read =>
    rw [Press.turn]
    cases Run.draft team p.system with
    | error halt s => exact h
    | ok merged s =>
      unfold Queued
      rw [← List.append_assoc, List.map_append, List.pairwise_append]
      refine ⟨h, List.pairwise_singleton .., ?_⟩
      simp only [List.forall_mem_map]
      simpa using fun draft => kept.reading_lt
  | publish i =>
    obtain rfl : i = 0 := by simpa [Turn.isFirstCome] using first
    rw [Press.turn]
    unfold Queued at h
    cases hwaiting : p.waiting with
    | nil => simpa [Queued, hwaiting] using h
    | cons draft rest =>
      rw [hwaiting] at h
      simp only [List.getElem?_cons_zero, List.eraseIdx_cons_zero]
      cases issue team draft.merged p.system with
      | ok w s => simpa [Queued] using h
      | error halt s =>
        refine h.sublist (List.Sublist.map _ ?_)
        exact (List.Sublist.refl _).append (List.sublist_cons_self draft rest)

theorem Queued.through (h : p.Queued) (kept : p.Kept team) {turns : List Turn}
    (first : ∀ t ∈ turns, t.isFirstCome) : (p.through team turns).Queued := by
  unfold Press.through
  induction turns generalizing p with
  | nil => exact h
  | cons t rest ih =>
    obtain ⟨ht, hrest⟩ := List.forall_mem_cons.1 first
    exact ih (h.turn kept ht) (kept.turn t) hrest

/-- The last of those that have published has read last. -/
theorem Queued.reading_le (h : p.Queued) {newest print : Print}
    (hnewest : p.prints.getLast? = some newest) (hprint : print ∈ p.prints) :
    print.draft.reading ≤ newest.draft.reading := by
  obtain ⟨before, hprints⟩ := List.getLast?_eq_some_iff.1 hnewest
  rw [hprints, List.mem_append, List.mem_singleton] at hprint
  unfold Queued at h
  rw [hprints, List.map_append, List.pairwise_append, List.map_append, List.map_append,
    List.pairwise_append] at h
  obtain ⟨⟨-, -, hlt⟩, -⟩ := h
  obtain hbefore | rfl := hprint
  · exact Nat.le_of_lt (hlt _ (by simpa using ⟨print, hbefore, rfl⟩) _ (by simp))
  · exact Nat.le_refl _

end Press

/-! ## Versions -/

/-- What the activations of a team come to that overlap in any way, with edits between them. The
versions of the team are those that were published, numbered in that order, each compiled from what
its activation has read: the document that was the newest one then. The last one is active, and
a turn that publishes nothing, as where an activation fails, leaves that and all versions as they
are. Of two versions, the one whose activation has read later is not made of an older document. So
where activations publish in the order of their readings, what is active is made of the newest
document that any of those that published has read. -/
theorem versions_follow_readings {s : System} (keyed : s.source.Keyed) (shelf : s.shelf = none)
    (versions : s.registry.versions = []) (active : s.registry.active = []) (team : String)
    (turns : List Press.Turn) :
    let p := (Press.of team s).through team turns
    (∀ (version : Int) w, p.system.registry.versions.get? (team, version) = some w ↔
      ∃ (k : Nat) (print : Print), version = k + 1 ∧ p.prints[k]? = some print ∧
        print.workflow = w) ∧
    (∀ (k : Nat) (print : Print), p.prints[k]? = some print →
      print.draft.IsOf team p.editions p.readings ∧
        print.draft.merged.compile (k + 1) = .ok print.workflow) ∧
    p.system.registry.active.get? team = p.prints.getLast?.map (·.workflow) ∧
    (∀ t : Press.Turn, (p.turn team t).prints = p.prints →
      (p.turn team t).system.registry = p.system.registry) ∧
    (∀ earlier ∈ p.prints, ∀ later ∈ p.prints, earlier.draft.reading ≤ later.draft.reading →
      earlier.draft.edition ≤ later.draft.edition) ∧
    ((∀ t ∈ turns, t.isFirstCome) → ∀ newest, p.prints.getLast? = some newest →
      ∀ print ∈ p.prints, print.draft.edition ≤ newest.draft.edition) := by
  intro p
  have hnew : (Press.of team s).Kept team := .of_new keyed shelf versions active
  have kept : p.Kept team := hnew.through turns
  have hordered : ∀ earlier ∈ p.prints, ∀ later ∈ p.prints,
      earlier.draft.reading ≤ later.draft.reading →
        earlier.draft.edition ≤ later.draft.edition := by
    intro earlier hearlier later hlater hle
    obtain ⟨hlt, hfirst⟩ := List.getElem?_eq_some_iff.1 (kept.printed earlier hearlier).reading
    obtain ⟨hlt', hsecond⟩ := List.getElem?_eq_some_iff.1 (kept.printed later hlater).reading
    rw [← hfirst, ← hsecond]
    obtain heq | hlt := Nat.eq_or_lt_of_le hle
    · simp only [heq, Nat.le_refl]
    · exact List.pairwise_iff_getElem.1 kept.ordered _ _ _ _ hlt
  refine ⟨fun version w => ?_, fun k print hk => ?_, ?_, fun t => kept.registry_turn, hordered,
    fun first newest hnewest print hprint => ?_⟩
  · rw [kept.records.versions, Press.history_of_prints]
    simp
  · exact ⟨kept.printed print (List.mem_of_getElem? hk), kept.compiled k print hk⟩
  · rw [kept.records.active, Press.history_of_prints, List.getLast?_map]
  · have hstart : (Press.of team s).Queued := List.Pairwise.nil
    have hqueued : p.Queued := hstart.through hnew first
    exact hordered print hprint newest (List.mem_of_getLast? hnewest)
      (hqueued.reading_le hnewest hprint)

/-- The sample team as it is edited later. -/
def reworkedDocument : Json := sampleDocument [onwardRule "A" "B"] []

/-- The sample team with a slip, for which it is not compiled. -/
def misspeltDocument : Json := sampleDocument [onwardRule "A" "nowhere"] []

/-- The sample team is activated, edited, and activated again. -/
def renewingTurns : List Press.Turn :=
  [.edit (sampleDocument [] []), .read, .publish 0, .edit reworkedDocument, .read, .publish 0]

/-- The second version is active then, and it is made of the second document. -/
theorem versions_follow_readings_renewed :
    let p := (Press.of "t" {}).through "t" renewingTurns
    ∃ newest : Print, p.system.registry.active.get? "t" = some newest.workflow ∧
      newest.draft.merged.compile 2 = .ok newest.workflow ∧ newest.draft.edition = 2 ∧
      ∀ print ∈ p.prints, print.draft.edition ≤ newest.draft.edition := by
  intro p
  have heditions : p.prints.map (·.draft.edition) = [1, 2] := by decide +kernel
  obtain ⟨-, hprints, hactive, -, -, hnewest⟩ := versions_follow_readings (s := {})
    (System.new_default {}).source rfl rfl rfl "t" renewingTurns
  change p.system.registry.active.get? "t" = p.prints.getLast?.map (·.workflow) at hactive
  have hlength : p.prints.length = 2 := by simpa using congrArg List.length heditions
  obtain ⟨first, second, hboth⟩ := List.length_eq_two.1 hlength
  have hlast : p.prints.getLast? = some second := by rw [hboth]; rfl
  have hsecond : p.prints[1]? = some second := by rw [hboth]; rfl
  refine ⟨second, ?_, (hprints 1 second hsecond).2, ?_, hnewest (by decide) second hlast⟩
  · rw [hactive, hlast]
    rfl
  · rw [hboth] at heditions
    simpa using congrArg List.getLast? heditions

/-- An activation that reads early and publishes late replaces the version of a newer document by
one of an older document. And an activation that reads the newest document, and fails, leaves the
version of an older document active, though no two activations overlap. -/
theorem editions_overtaken :
    (let p := (Press.of "t" {}).through "t"
      [.edit (sampleDocument [] []), .read, .edit reworkedDocument, .read, .publish 1, .publish 0]
    p.waiting.length = 0 ∧ p.readings = [1, 2] ∧ p.prints.map (·.draft.edition) = [2, 1] ∧
      p.prints.map (·.workflow.version) = [1, 2] ∧
      (p.system.registry.active.get? "t").map (·.version) = some 2) ∧
    let p := (Press.of "t" {}).through "t"
      [.edit (sampleDocument [] []), .read, .publish 0, .edit misspeltDocument, .read, .publish 0]
    p.waiting.length = 0 ∧ p.readings = [1, 2] ∧ p.prints.map (·.draft.edition) = [1] ∧
      (p.system.registry.active.get? "t").map (·.version) = some 1 := by
  constructor
  all_goals decide +kernel

end Stageflow
