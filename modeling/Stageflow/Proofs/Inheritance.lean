import Stageflow.Document.Resolution
import Stageflow.Proofs.Results
import Stageflow.Proofs.Tables

/-!
# Inheritance along the lineage

What a document is resolved to. Its lineage is the chain of the documents it extends, and each
section of the merged document holds every key that a document of the lineage declares, where the
key was declared first, with the element of the document nearest to the leaf.

## Main statements

* `Resolution.inherits_merge` — what merging a lineage makes of a section.
* `resolve_inherits` — what a document is resolved to.
-/

namespace Stageflow

/-! ## The lineage -/

/-- The documents from the root of an extension to a document: the root extends none, and each other
document extends the one before it. -/
inductive Source.Lineage (source : Source) : List TeamDocument → TeamDocument → Prop
  | root {document : TeamDocument} (base : document.base = none) :
    Lineage source [document] document
  | extend {documents : List TeamDocument} {parent document : TeamDocument} {team : String}
    (base : document.base = some team) (found : source.document? team = some parent)
    (inherited : Lineage source documents parent) :
    Lineage source (documents ++ [document]) document

namespace Resolution

variable {source : Source} {sect : Section} {document : TeamDocument}
  {documents : List TeamDocument}

/-- A chain of documents that can be followed to its root is a lineage. -/
theorem lineage_ok {fuel : Nat} {chain : List String}
    (h : lineage source fuel chain document = .ok documents) :
    source.Lineage documents document := by
  induction fuel generalizing chain document documents with
  | zero =>
    unfold lineage at h
    split at h
    · cases h
    · split at h
      · rename_i hbase
        cases h
        exact .root hbase
      · split at h <;> cases h
  | succ fuel ih =>
    unfold lineage at h
    split at h
    · cases h
    · split at h
      · rename_i hbase
        cases h
        exact .root hbase
      · rename_i team hbase
        split at h
        · cases h
        · rename_i parent hparent
          obtain ⟨inherited, hinherited, rfl⟩ := map_eq_ok.1 h
          exact .extend hbase hparent (ih hinherited)

/-! ## Sections -/

/-- Some elements under their keys; what has no key is left out. -/
def keyed (sect : Section) (elements : List Fields) : Table String Fields :=
  elements.filterMap fun element => (Fields.key sect.name element).toOption.map (·, element)

/-- The elements of a document in a section, with its references spliced out. -/
def ownElements (source : Source) (sect : Section) (document : TeamDocument) : List Fields :=
  (expand source sect deepestReference [] (document.sections.of sect)).elements

/-- What a document declares in a section. -/
def declared (source : Source) (sect : Section) (document : TeamDocument) : Table String Fields :=
  keyed sect (ownElements source sect document)

/-- Whether every element that a document has in a section has a key, and no two the same. -/
structure WellKeyed (source : Source) (sect : Section) (document : TeamDocument) : Prop where
  keyed : ∀ element ∈ ownElements source sect document,
    ∃ key, Fields.key sect.name element = .ok key
  distinct : (declared source sect document).keys.Nodup

/-- What a section holds that inherits along a lineage: the keys that the documents declare, where
they come first, with the elements of the document nearest to the leaf. -/
structure Inherits (source : Source) (sect : Section) (documents : List TeamDocument)
    (elements : List Json) : Prop where
  wellKeyed : ∀ d ∈ documents, WellKeyed source sect d
  distinct : (elements.map (elementKey sect.name)).Nodup
  keys : elements.map (elementKey sect.name) =
    (documents.flatMap fun d => (declared source sect d).keys).eraseDups.map .ok
  nearest : ∀ raw ∈ elements, ∃ key element earlier d later,
    elementKey sect.name raw = .ok key ∧ raw = .obj element ∧
      documents = earlier ++ d :: later ∧ (key, element) ∈ declared source sect d ∧
      ∀ d' ∈ later, key ∉ (declared source sect d').keys

theorem keyed_cons {element : Fields} {rest : List Fields} {key : String}
    (h : Fields.key sect.name element = .ok key) :
    keyed sect (element :: rest) = (key, element) :: keyed sect rest := by
  simp [keyed, h, Except.toOption]

theorem key_of_mem_keyed {elements : List Fields} {p : String × Fields}
    (h : p ∈ keyed sect elements) : Fields.key sect.name p.2 = .ok p.1 := by
  obtain ⟨element, -, h⟩ := List.mem_filterMap.1 h
  obtain ⟨key, hkey, rfl⟩ := Option.map_eq_some_iff.1 h
  cases hfields : Fields.key sect.name element with
  | error defect => simp [hfields, Except.toOption] at hkey
  | ok other =>
    simp only [hfields, Except.toOption, Option.some.injEq] at hkey
    rw [hkey]

/-- Elements laid over inherited ones without a complaint have different keys, and are put in under
them. -/
theorem layOver_clean {seen : List String} {inherited table : Table String Fields}
    {elements : List Fields} (h : layOver sect seen inherited elements = (table, [])) :
    (∀ element ∈ elements, ∃ key, Fields.key sect.name element = .ok key) ∧
      (keyed sect elements).keys.Nodup ∧ (∀ key ∈ (keyed sect elements).keys, key ∉ seen) ∧
      table = inherited.putAll (keyed sect elements) := by
  induction elements generalizing seen inherited with
  | nil =>
    cases h
    exact ⟨by simp, List.nodup_nil, by simp [Table.keys, keyed], rfl⟩
  | cons element rest ih =>
    unfold layOver at h
    split at h
    · cases h
    · rename_i key hkey
      split at h
      · cases h
      · rename_i hfresh
        obtain ⟨hkeyed, hnodup, hnot, rfl⟩ := ih h
        rw [keyed_cons hkey]
        refine ⟨List.forall_mem_cons.2 ⟨⟨key, hkey⟩, hkeyed⟩, ?_, ?_, rfl⟩
        · exact List.nodup_cons.2 ⟨fun hmem => hnot key hmem (by simp), hnodup⟩
        · refine List.forall_mem_cons.2 ⟨hfresh, fun other hother hseen => ?_⟩
          exact hnot other hother (List.mem_cons_of_mem _ hseen)

/-- A section of a document is laid over the inherited one without a complaint only if it is keyed
well. -/
theorem mergeSection_clean {inherited : Table String Fields}
    (h : (mergeSection source document inherited sect).2 = []) :
    WellKeyed source sect document ∧
      (mergeSection source document inherited sect).1 =
        inherited.putAll (declared source sect document) := by
  obtain ⟨-, hcauses⟩ := List.append_eq_nil_iff.1 h
  have hclean : layOver sect [] inherited (ownElements source sect document) =
      ((mergeSection source document inherited sect).1, []) := Prod.ext rfl hcauses
  obtain ⟨hkeyed, hnodup, -, htable⟩ := layOver_clean hclean
  exact ⟨⟨hkeyed, hnodup⟩, htable⟩

/-! ## Documents -/

/-- A document is laid over its layers without an issue only if all its sections are keyed well. -/
theorem add_clean {layers : Layers} (h : (layers.add source document).issues = []) :
    layers.issues = [] ∧ ∀ sect, WellKeyed source sect document ∧
      (layers.add source document).sections.of sect =
        (layers.sections.of sect).putAll (declared source sect document) := by
  obtain ⟨hissues, hown⟩ := List.append_eq_nil_iff.1 h
  refine ⟨hissues, fun sect => ?_⟩
  have hsect : (mergeSection source document (layers.sections.of sect) sect).2 = [] := by
    have hall : sect ∈ Section.all := by cases sect <;> decide
    simpa using List.flatMap_eq_nil_iff.1 hown sect hall
  obtain ⟨hkeyed, hmerged⟩ := mergeSection_clean hsect
  refine ⟨hkeyed, ?_⟩
  rw [← hmerged]
  simp [Layers.add]

theorem merge_clean {layers : Layers}
    (h : (documents.foldl (Layers.add source) layers).issues = []) :
    layers.issues = [] ∧ ∀ sect, (∀ d ∈ documents, WellKeyed source sect d) ∧
      (documents.foldl (Layers.add source) layers).sections.of sect =
        (layers.sections.of sect).putAll (documents.flatMap (declared source sect)) := by
  induction documents generalizing layers with
  | nil => exact ⟨h, fun sect => ⟨by simp, rfl⟩⟩
  | cons document rest ih =>
    obtain ⟨hfirst, hrest⟩ := ih h
    obtain ⟨hissues, hown⟩ := add_clean hfirst
    refine ⟨hissues, fun sect => ?_⟩
    obtain ⟨hkeyed, hmerged⟩ := hrest sect
    refine ⟨List.forall_mem_cons.2 ⟨(hown sect).1, hkeyed⟩, ?_⟩
    rw [List.foldl_cons, hmerged, (hown sect).2, List.flatMap_cons, Table.putAll_append]

/-- The initial status of merged layers is the last one that counts as true. -/
theorem initialStatus_merge {layers : Layers} :
    (documents.foldl (Layers.add source) layers).initialStatus =
      ((documents.reverse.map (·.initialStatus)).find? (·.truthy)).getD layers.initialStatus := by
  induction documents generalizing layers with
  | nil => rfl
  | cons document rest ih =>
    have hadd : (layers.add source document).initialStatus =
        document.initialStatus.orElse layers.initialStatus := rfl
    rw [List.foldl_cons, ih, hadd, List.reverse_cons, List.map_append, List.find?_append]
    cases (rest.reverse.map (·.initialStatus)).find? (·.truthy) with
    | some status => rfl
    | none =>
      by_cases htruthy : document.initialStatus.truthy <;> simp [Json.orElse, htruthy]

/-- The sections of a lineage merged without an issue hold what its documents declare, put together
from the root to the leaf. -/
theorem sections_merge (h : (merge source documents).issues = []) (sect : Section) :
    (∀ d ∈ documents, WellKeyed source sect d) ∧ (merge source documents).sections.of sect =
      Table.putAll [] (documents.flatMap (declared source sect)) := by
  obtain ⟨-, hsections⟩ := merge_clean h
  obtain ⟨hwellKeyed, hmerged⟩ := hsections sect
  refine ⟨hwellKeyed, hmerged.trans ?_⟩
  rw [show ({} : Layers).sections.of sect = [] from PerSection.of_ofFunction _ _]

/-- A section of a merged lineage inherits along it. -/
theorem inherits_merge (h : (merge source documents).issues = []) (sect : Section) :
    Inherits source sect documents
      (((merge source documents).sections.of sect).values.map .obj) := by
  obtain ⟨hwellKeyed, hmerged⟩ := sections_merge h sect
  rw [hmerged]
  have hempty : (Table.keys ([] : Table String Fields)).Nodup := List.nodup_nil
  generalize htable : Table.putAll [] (documents.flatMap (declared source sect)) = table
  -- every entry is the declared one of the document nearest to the leaf
  have hnearest (p : String × Fields) (hp : p ∈ table) :
      ∃ earlier d later, documents = earlier ++ d :: later ∧ p ∈ declared source sect d ∧
        ∀ d' ∈ later, p.1 ∉ (declared source sect d').keys := by
    obtain ⟨hnil, -⟩ | h := Table.mem_putAll_flatMap hempty (htable ▸ hp)
    · cases hnil
    · exact h
  have hkeys :
      table.keys = (documents.flatMap fun d => (declared source sect d).keys).eraseDups := by
    rw [← htable, Table.keys_putAll hempty]
    simp only [Table.keys, List.map_nil, List.nil_append, List.map_flatMap]
  have helements : (table.values.map Json.obj).map (elementKey sect.name) = table.keys.map .ok := by
    simp only [Table.values, Table.keys, List.map_map]
    refine List.map_congr_left fun p hp => ?_
    obtain ⟨_, d, _, -, hd, -⟩ := hnearest p hp
    exact key_of_mem_keyed hd
  have hdistinct : table.keys.Nodup := htable ▸ Table.nodup_keys_putAll hempty
  refine ⟨hwellKeyed, ?_, helements.trans (by rw [hkeys]), fun raw hraw => ?_⟩
  · rw [helements]
    exact List.pairwise_map.2 (hdistinct.imp fun hne heq => hne (Except.ok.inj heq))
  · obtain ⟨element, helement, rfl⟩ := List.mem_map.1 hraw
    obtain ⟨p, hp, rfl⟩ := List.mem_map.1 helement
    obtain ⟨earlier, d, later, rfl, hd, hlater⟩ := hnearest p hp
    exact ⟨p.1, p.2, earlier, d, later, key_of_mem_keyed hd, rfl, rfl, hd, hlater⟩

end Resolution

/-- A document is resolved along its lineage: every section inherits along it, and the initial
status is the one nearest to the leaf that counts as true. -/
theorem resolve_inherits {source : Source} {document : TeamDocument} {merged : MergedDocument}
    (resolved : source.resolve document = .ok merged) :
    ∃ documents, source.Lineage documents document ∧ merged.lineage = documents.map (·.id) ∧
      (∀ sect, Resolution.Inherits source sect documents (merged.sections.of sect)) ∧
      merged.initialStatus =
        ((documents.reverse.map (·.initialStatus)).find? (·.truthy)).getD .null := by
  unfold Source.resolve at resolved
  split at resolved
  · cases resolved
  · rename_i documents hlineage
    dsimp only at resolved
    split at resolved
    · cases resolved
    split at resolved
    · rename_i hissues
      cases resolved
      refine ⟨documents, Resolution.lineage_ok hlineage, rfl, fun sect => ?_,
        Resolution.initialStatus_merge⟩
      have hmerged := Resolution.inherits_merge (List.isEmpty_iff.1 hissues) sect
      simpa [Resolution.Layers.toMerged] using hmerged
    · cases resolved

/-- The document of a sample team that declares statuses, and nothing else. -/
def sampleTeam (id : String) (base : Option String) (statuses : List Json) : TeamDocument where
  id := id
  name := .str id
  description := .str ""
  version := "1"
  base := base
  initialStatus := .null
  sections := {
    stages := [], statuses, transitions := [], complexity := [], automation := [], metrics := [] }

/-- A team, and a fragment that another one refers to. -/
def sampleSource : Source where
  documents := [("base", sampleTeam "base" none
    [.obj [("id", .str "A"), ("stage", .str "work")], .obj [("id", .str "B")]])]
  fragments := [("common", .arr [.obj [("id", .str "C")]])]

/-- A team that extends another one. -/
def sampleLeaf : TeamDocument :=
  sampleTeam "leaf" (some "base")
    [.obj [("$ref", .str "common")], .obj [("id", .str "A"), ("stage", .str "done")]]

theorem resolve_inherits_leaf :
    ∃ merged, sampleSource.resolve sampleLeaf = .ok merged ∧ merged.lineage = ["base", "leaf"] ∧
      merged.sections.statuses.map (fun raw => (elementKey "statuses" raw).toOption) =
        [some "A", some "B", some "C"] ∧
      ∃ documents, sampleSource.Lineage documents sampleLeaf ∧
        merged.lineage = documents.map (·.id) ∧
        (∀ sect, Resolution.Inherits sampleSource sect documents (merged.sections.of sect)) ∧
        merged.initialStatus =
          ((documents.reverse.map (·.initialStatus)).find? (·.truthy)).getD .null := by
  have hrun : (match sampleSource.resolve sampleLeaf with
      | .ok merged =>
        decide (merged.lineage = ["base", "leaf"] ∧
          merged.sections.statuses.map (fun raw => (elementKey "statuses" raw).toOption) =
            [some "A", some "B", some "C"])
      | .error _ => false) = true := by decide +kernel
  cases hmerged : sampleSource.resolve sampleLeaf with
  | error issues => simp [hmerged] at hrun
  | ok merged =>
    simp only [hmerged, decide_eq_true_eq] at hrun
    exact ⟨merged, rfl, hrun.1, hrun.2, resolve_inherits hmerged⟩

end Stageflow
