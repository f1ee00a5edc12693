import Stageflow.Document.Source
import Stageflow.Element.Transition
import Stageflow.Text.Order

/-!
# Resolution of team documents

A document is resolved along its lineage, the chain of documents from the root of its extension to
itself. In each document the references to fragments are spliced out (`Resolution.expand`), and its
elements are laid over the inherited ones: an element replaces the inherited one of its key where
that one stands, and a new key goes behind (`Resolution.layOver`).
-/

namespace Stageflow

/-- Why a document cannot be resolved. -/
inductive ResolutionCause where
  | unknownBase (base : String)
  | unknownTeam
  | unknownFragment (sect : Section) (name : Json)
  | circularExtension (chain : List String)
  | circularReference (sect : Section) (chain : List String)
  | duplicateKey (sect : Section) (key : String)
  | noFields (sect : Section) (index : Nat) (kind : String)
  | noKey (sect : Section)
  | fragmentShape (sect : Section) (name : String)
  | unwritable (sect : Section)
  deriving Repr

/-- Whether a cause is that a value cannot be written where it has to be named. -/
def ResolutionCause.isUnwritable : ResolutionCause → Bool
  | .unwritable _ => true
  | _ => false

/-- A cause, with the team in whose document it lies. -/
structure ResolutionIssue where
  team : String
  cause : ResolutionCause
  deriving Repr

namespace ResolutionIssue

/-- The class of an issue. -/
def kind (issue : ResolutionIssue) : String :=
  match issue.cause with
  | .unknownBase _ | .unknownTeam => "unknown_base"
  | .unknownFragment .. => "unknown_fragment"
  | .circularExtension _ => "circular_extends"
  | .circularReference .. => "circular_ref"
  | .duplicateKey .. => "duplicate_id"
  | .noFields .. | .noKey _ | .fragmentShape .. | .unwritable _ => "malformed"

/-- The wording of an issue. -/
def message (issue : ResolutionIssue) : String :=
  match issue.cause with
  | .unknownBase base => s!"team '{issue.team}' extends unknown config '{base}'"
  | .unknownTeam => s!"no team config found for '{issue.team}'"
  | .unknownFragment sect name => s!"{sect.name}: unknown fragment '{name.display}'"
  | .circularExtension chain => "circular extends chain: " ++ Text.arrows chain
  | .circularReference sect chain => s!"circular $ref chain in {sect.name}: " ++ Text.arrows chain
  | .duplicateKey sect key => s!"{sect.name}: duplicate id '{key}'"
  | .noFields sect index kind => s!"{sect.name}[{index}] must be a dict, got {kind}"
  | .noKey sect => (Defect.noKey sect.name).message
  | .fragmentShape sect name => s!"fragment '{name}' section '{sect.name}' must be a list"
  | .unwritable sect => s!"{sect.name}: " ++ Json.unwritable

/-- An issue with its class in front. -/
def line (issue : ResolutionIssue) : String := s!"[{issue.kind}] {issue.message}"

/-- The failure to resolve a team's document, with all its issues. -/
def summary (team : String) (issues : List ResolutionIssue) : String :=
  s!"Cannot resolve config for team '{team}': " ++ "; ".intercalate (issues.map line)

end ResolutionIssue

/-- A document with its lineage merged and its references spliced out. -/
structure MergedDocument where
  team : String
  name : Json
  description : Json
  version : Json
  initialStatus : Json
  sections : Sections
  lineage : List String
  deriving Repr

namespace Resolution

/-! ## The lineage -/

/-- The documents from the root of the extension to a document. `chain` holds the teams that lead to
it, the leaf first; the fuel bounds the number of bases still to be found. -/
def lineage (source : Source) :
    Nat → List String → TeamDocument → Except ResolutionIssue (List TeamDocument)
  | fuel, chain, document =>
    if document.id ∈ chain then
      .error ⟨chain.head?.getD document.id, .circularExtension (chain ++ [document.id])⟩
    else
      match document.base, fuel with
      | none, _ => .ok [document]
      | some base, fuel =>
        match source.document? base with
        | none => .error ⟨document.id, .unknownBase base⟩
        | some parent =>
          match fuel with
          | 0 => .error ⟨document.id, .unknownBase base⟩
          | fuel + 1 =>
            (lineage source fuel (chain ++ [document.id]) parent).map (· ++ [document])

/-- The most bases a chain of different documents can have. -/
def mostBases (source : Source) : Nat := source.documents.length + source.templates.length + 1

/-! ## References -/

/-- The elements a list of raw elements stands for, and what is wrong with them. -/
structure Expansion where
  elements : List Fields := []
  causes : List ResolutionCause := []

/-- One expansion behind another. -/
def Expansion.append (a b : Expansion) : Expansion :=
  ⟨a.elements ++ b.elements, a.causes ++ b.causes⟩

/-- What a fragment holds for a section: a list stands for every section. -/
def fragmentSection (source : Source) (sect : Section) (name : String) : Option Json :=
  match source.fragment? name with
  | some (.arr elements) => some (.arr elements)
  | some (.obj fields) =>
    match Table.get? sect.name fields with
    | none | some .null => none
    | some content => some content
  | _ => none

/-- How deep references may lead. -/
def deepestReference : Nat := 32

/-- What is wrong with a reference, if it can be named. -/
def fault (sect : Section) (name : Json) (cause : ResolutionCause) : Expansion :=
  { causes := [if name.isWritable then cause else .unwritable sect] }

@[simp] theorem causes_fault {sect : Section} {name : Json} {cause : ResolutionCause} :
    (fault sect name cause).causes = [if name.isWritable then cause else .unwritable sect] := rfl

@[simp] theorem elements_fault {sect : Section} {name : Json} {cause : ResolutionCause} :
    (fault sect name cause).elements = [] := rfl

/-- What a reference stands for. `stack` holds the fragments that lead to it; `deeper` expands the
content of another one, if the depth allows it. -/
def splice (source : Source) (sect : Section) (stack : List String)
    (deeper : Option (List String → List Json → Expansion)) (name : Json) : Expansion :=
  let circular := fault sect name (.circularReference sect (stack ++ [name.display]))
  match deeper with
  | none => circular
  | some deeper =>
    if stack.any fun s => name.alike (.str s) then circular
    else
      match name with
      | .str text =>
        match fragmentSection source sect text with
        | some (.arr elements) => deeper (stack ++ [text]) elements
        | some _ => { causes := [.fragmentShape sect text] }
        | none => { causes := [.unknownFragment sect name] }
      | _ => fault sect name (.unknownFragment sect name)

/-- Expands raw elements one after another, the first at an index. -/
def expandWith (sect : Section) (reference : Json → Expansion) : Nat → List Json → Expansion
  | _, [] => {}
  | index, .obj fields :: rest =>
    let first : Expansion :=
      match Table.get? "$ref" fields with
      | none => { elements := [fields] }
      | some name => reference name
    first.append (expandWith sect reference (index + 1) rest)
  | index, raw :: rest =>
    Expansion.append { causes := [.noFields sect index raw.kindName] }
      (expandWith sect reference (index + 1) rest)

/-- Splices out the references of raw elements. The first number says how much deeper they may
lead. -/
def expand (source : Source) (sect : Section) : Nat → List String → List Json → Expansion
  | 0, stack, elements => expandWith sect (splice source sect stack none) 0 elements
  | room + 1, stack, elements =>
    expandWith sect (splice source sect stack (some (expand source sect room))) 0 elements

/-! ## Layers -/

/-- Lays a document's elements over inherited ones. `seen` holds the keys of the document's elements
so far; an element whose key is seen is left out. -/
def layOver (sect : Section) :
    List String → Table String Fields → List Fields →
      Table String Fields × List ResolutionCause
  | _, inherited, [] => (inherited, [])
  | seen, inherited, element :: rest =>
    match Fields.key sect.name element with
    | .error d =>
      let (merged, causes) := layOver sect seen inherited rest
      (merged, (if d.kind = .missing then .noKey sect else .unwritable sect) :: causes)
    | .ok key =>
      if key ∈ seen then
        let (merged, causes) := layOver sect seen inherited rest
        (merged, .duplicateKey sect key :: causes)
      else layOver sect (key :: seen) (inherited.put key element) rest

/-- What a lineage has merged to so far. -/
structure Layers where
  sections : PerSection (Table String Fields) := .ofFunction fun _ => []
  initialStatus : Json := .null
  issues : List ResolutionIssue := []

/-- One section of a document laid over the inherited one. -/
def mergeSection (source : Source) (document : TeamDocument) (inherited : Table String Fields)
    (sect : Section) : Table String Fields × List ResolutionCause :=
  let own := expand source sect deepestReference [] (document.sections.of sect)
  let (merged, causes) := layOver sect [] inherited own.elements
  (merged, own.causes ++ causes)

/-- A document laid over what it inherits. -/
def Layers.add (source : Source) (layers : Layers) (document : TeamDocument) : Layers :=
  let merged := PerSection.ofFunction fun sect =>
    mergeSection source document (layers.sections.of sect) sect
  { sections := .ofFunction fun sect => (merged.of sect).1
    initialStatus := document.initialStatus.orElse layers.initialStatus
    issues := layers.issues ++
      Section.all.flatMap fun sect => (merged.of sect).2.map (⟨document.id, ·⟩) }

/-- The layers of a lineage, root first. -/
def merge (source : Source) (documents : List TeamDocument) : Layers :=
  documents.foldl (Layers.add source) {}

/-- The document that a leaf and its layers make. -/
def Layers.toMerged (layers : Layers) (leaf : TeamDocument) (lineage : List String) :
    MergedDocument where
  team := leaf.id
  name := leaf.name
  description := leaf.description
  version := .str leaf.version
  initialStatus := layers.initialStatus
  sections := .ofFunction fun sect => (layers.sections.of sect).values.map .obj
  lineage := lineage

end Resolution

/-- Why a document is not resolved: for all the issues found, or for a defect that ends the search
for them. -/
inductive Unresolved where
  | issues (issues : List ResolutionIssue)
  | defect (d : Defect)
  deriving Repr

/-- Resolves a document, or gives all issues found. A value that cannot be written where an issue
has to name it ends the search. -/
def Source.resolve (source : Source) (document : TeamDocument) :
    Except Unresolved MergedDocument :=
  match Resolution.lineage source (Resolution.mostBases source) [] document with
  | .error issue => .error (.issues [issue])
  | .ok documents =>
    let layers := Resolution.merge source documents
    if layers.issues.any (·.cause.isUnwritable) then .error (.defect .unwritable)
    else if layers.issues.isEmpty then .ok (layers.toMerged document (documents.map (·.id)))
    else .error (.issues layers.issues)

/-- A document is resolved to what its lineage is merged to, if there are no issues. -/
theorem Source.resolve_eq_ok {source : Source} {document : TeamDocument} {merged : MergedDocument}
    (h : source.resolve document = .ok merged) :
    ∃ documents, Resolution.lineage source (Resolution.mostBases source) [] document =
        .ok documents ∧ (Resolution.merge source documents).issues = [] ∧
      merged = (Resolution.merge source documents).toMerged document (documents.map (·.id)) := by
  unfold Source.resolve at h
  split at h
  · cases h
  · rename_i documents hlineage
    dsimp only at h
    split at h
    · cases h
    split at h
    · rename_i hissues
      cases h
      exact ⟨documents, hlineage, List.isEmpty_iff.1 hissues, rfl⟩
    · cases h

/-- A document that has issues has at least one. -/
theorem Source.resolve_issues_ne_nil {source : Source} {document : TeamDocument}
    {issues : List ResolutionIssue} (h : source.resolve document = .error (.issues issues)) :
    issues ≠ [] := by
  unfold Source.resolve at h
  split at h
  · cases h
    exact List.cons_ne_nil _ _
  · dsimp only at h
    split at h
    · cases h
    split at h
    · cases h
    · rename_i hissues
      cases h
      exact fun hnil => hissues (List.isEmpty_iff.2 hnil)

end Stageflow
