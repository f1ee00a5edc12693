import Stageflow.Proofs.Extensions
import Stageflow.Workflow.Validation

/-!
# Bare documents

A document that declares nothing itself, and only extends one that extends none, comes to what that
one comes to: the same elements and the same issues, under another id. Of the source it is only the
fragments that decide what a document without a base comes to.

## Main statements

* `Source.resolve_root` — what a document without a base comes to, by the fragments.
* `Source.resolve_bare` — what a bare document comes to.
* `MergedDocument.issues_congr` — the issues are those of the sections and the initial status.
-/

namespace Stageflow

variable {source other : Source} {document parent : TeamDocument} {merged : MergedDocument}

namespace Resolution

/-! ## Fragments of a source -/

section Congr

variable (same : ∀ name, source.fragment? name = other.fragment? name) (sect : Section)
include same

theorem splice_congr (stack : List String)
    (deeper : Option (List String → List Json → Expansion)) :
    splice source sect stack deeper = splice other sect stack deeper := by
  have hsection : fragmentSection source sect = fragmentSection other sect := by
    funext name
    unfold fragmentSection
    rw [same]
  funext name
  unfold splice
  rw [hsection]

theorem expand_congr (room : Nat) : expand source sect room = expand other sect room := by
  induction room with
  | zero =>
    funext stack elements
    rw [expand, expand, splice_congr same]
  | succ room ih =>
    funext stack elements
    rw [expand, expand, ih, splice_congr same]

/-- Sources with the same fragments merge the same lineage to the same layers. -/
theorem merge_congr (documents : List TeamDocument) :
    merge source documents = merge other documents := by
  have hadd : Layers.add source = Layers.add other := by
    funext layers document
    have hsection (sect : Section) : mergeSection source document (layers.sections.of sect) sect =
        mergeSection other document (layers.sections.of sect) sect := by
      unfold mergeSection
      rw [expand_congr same]
    unfold Layers.add
    simp only [hsection]
  unfold merge
  rw [hadd]

end Congr

/-- A document without elements leaves the elements of what it is laid over as they are. -/
theorem Layers.add_bare (bare : ∀ sect, document.sections.of sect = []) (source : Source)
    (layers : Layers) : layers.add source document =
      { layers with initialStatus := document.initialStatus.orElse layers.initialStatus } := by
  have hsection (sect : Section) (inherited : Table String Fields) :
      mergeSection source document inherited sect = (inherited, []) := by
    unfold mergeSection
    rw [bare]
    rfl
  unfold Layers.add
  simp only [hsection, PerSection.of_ofFunction]
  simp [Section.all]
  rfl

end Resolution

/-! ## Resolving -/

/-- A document without a base is its own lineage. -/
theorem Source.lineage_root (root : document.base = none) :
    Resolution.lineage source (Resolution.mostBases source) [] document = .ok [document] := by
  simp [Resolution.lineage, root]

/-- A document that extends one without a base comes behind it. -/
theorem Source.lineage_heir (hextends : source.Extends document parent) (root : parent.base = none)
    (hne : parent.id ≠ document.id) :
    Resolution.lineage source (Resolution.mostBases source) [] document =
      .ok [parent, document] := by
  obtain ⟨way, ending, hway, hlineage⟩ := Resolution.exists_way source document
  have hheir : source.Way [] document [document, parent] .root :=
    .onward hextends (by simpa using hne) (.stop root)
  obtain ⟨rfl, rfl⟩ := hway.unique hheir
  exact hlineage

/-- What a document without a base comes to is decided by the fragments of the source. -/
theorem Source.resolve_root (same : ∀ name, source.fragment? name = other.fragment? name)
    (root : document.base = none) : source.resolve document = other.resolve document := by
  unfold Source.resolve
  rw [lineage_root root, lineage_root root]
  dsimp only
  rw [Resolution.merge_congr same]

/-- A bare document comes to what it extends, under its own id. -/
theorem Source.resolve_bare (bare : ∀ sect, document.sections.of sect = [])
    (hextends : source.Extends document parent) (root : parent.base = none)
    (hne : parent.id ≠ document.id) (hparent : source.resolve parent = .ok merged) :
    ∃ heir, source.resolve document = .ok heir ∧ heir.lineage = [parent.id, document.id] ∧
      heir.sections = merged.sections ∧
      heir.initialStatus = document.initialStatus.orElse merged.initialStatus := by
  obtain ⟨documents, hlineage, clean, rfl⟩ := source.resolve_eq_ok hparent
  obtain rfl : [parent] = documents := Except.ok.inj ((lineage_root root).symm.trans hlineage)
  have hmerge : Resolution.merge source [parent, document] =
      { Resolution.merge source [parent] with
        initialStatus :=
          document.initialStatus.orElse (Resolution.merge source [parent]).initialStatus } :=
    Resolution.Layers.add_bare bare source _
  have hclean : (Resolution.merge source [parent, document]).issues = [] := by
    rw [hmerge]
    exact clean
  refine ⟨_, resolve_of_clean (lineage_heir hextends root hne) hclean, rfl, ?_, ?_⟩
  · rw [hmerge]
    rfl
  · rw [hmerge]
    rfl

/-! ## Issues -/

/-- The issues of a merged document are those of its sections and its initial status. -/
theorem MergedDocument.issues_congr {first second : MergedDocument}
    (sections : first.sections = second.sections)
    (initialStatus : first.initialStatus = second.initialStatus) :
    first.issues = second.issues := by
  unfold MergedDocument.issues ParsedDocument.ofMerged
  rw [sections, initialStatus]

end Stageflow
