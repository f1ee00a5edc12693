/-!
# Identifiers

The ids of teams and of everything a document declares: an ASCII letter or digit, then up to 63
letters, digits, underscores, dots and hyphens. One line end after them is let through.
-/

namespace Stageflow.Text

/-- A character that may start an identifier. -/
def startsId (c : Char) : Bool := c.isAlphanum

/-- A character that may follow in an identifier. -/
def continuesId (c : Char) : Bool := c.isAlphanum || c = '_' || c = '.' || c = '-'

/-- Whether characters spell an identifier, with nothing behind it. -/
def isIdWord : List Char → Bool
  | [] => false
  | c :: cs => startsId c && cs.all continuesId && cs.length ≤ 63

/-- The characters without a line end behind them. -/
def dropLineEnd (cs : List Char) : List Char :=
  if cs.getLast? = some '\n' then cs.dropLast else cs

/-- Whether a text is accepted as an identifier. -/
def isIdentifier (s : String) : Bool := isIdWord (dropLineEnd s.toList)

/-- The pattern that messages quote for an identifier. -/
def identifierPattern : String := "^[A-Za-z0-9][A-Za-z0-9_.-]\x7b0,63\x7d$"

end Stageflow.Text
