import Stageflow.Sorted

/-!
# Sets of texts in order

Answers list a set of texts by code point, each once.
-/

namespace Stageflow.Text

/-- Texts by code point. -/
def sorted (texts : List String) : List String := sortBy (fun a b => decide (a ≤ b)) texts

/-- The different texts of a list, by code point. -/
def sortedSet (texts : List String) : List String := sorted texts.eraseDups

/-- Texts with commas between them. -/
def commas (texts : List String) : String := ", ".intercalate texts

/-- Texts with arrows between them. -/
def arrows (texts : List String) : String := " -> ".intercalate texts

end Stageflow.Text
