import Stageflow.Document.Builtin
import Stageflow.Text.Order

/-!
# Sources of documents

Where documents and fragments are looked up: those that were stored, and behind them the built-in
ones.
-/

namespace Stageflow

/-- Stored documents and fragments, and the ones that serve where none is stored. -/
structure Source where
  documents : Table String TeamDocument := []
  fragments : Fields := []
  templates : Table String TeamDocument := []
  shared : Fields := []
  deriving Repr

namespace Source

/-- The document of a team. -/
def document? (source : Source) (team : String) : Option TeamDocument :=
  (source.documents.get? team).orElse fun _ => source.templates.get? team

/-- The fragment of a name; a null counts as none. -/
def fragment? (source : Source) (name : String) : Option Json :=
  match source.fragments.get? name with
  | none | some .null => source.shared.get? name
  | some fragment => some fragment

/-- The teams with a stored document, by code point. -/
def teamIds (source : Source) : List String := Text.sorted source.documents.keys

/-- A source without stored documents, with the built-in ones if wanted. -/
def empty (builtins : Bool) : Source :=
  if builtins then
    { templates := Builtin.templates, shared := Builtin.fragments }
  else {}

/-- Stores a document under its id. -/
def putDocument (source : Source) (document : TeamDocument) : Source :=
  { source with documents := source.documents.put document.id document }

/-- Stores a fragment. -/
def putFragment (source : Source) (name : String) (fragment : Json) : Source :=
  { source with fragments := source.fragments.put name fragment }

end Source

end Stageflow
