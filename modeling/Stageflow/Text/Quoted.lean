import Stageflow.Text.Printable

/-!
# Quoted text

Text in quotes, as values appear inside messages: single quotes, or double quotes for text that
holds a single quote and no double one. What is not printable is escaped by its code point.
-/

namespace Stageflow.Text

/-- A number in hexadecimal with at least `width` lower-case digits. -/
def hexDigits (width n : Nat) : String :=
  let digits := Nat.toDigits 16 n
  String.ofList (List.replicate (width - digits.length) '0' ++ digits)

/-- The escape of a code point by its number. -/
def codeEscape (n : Nat) : String :=
  if n < 0x100 then "\\x" ++ hexDigits 2 n
  else if n < 0x10000 then "\\u" ++ hexDigits 4 n
  else "\\U" ++ hexDigits 8 n

/-- One character inside quotes `mark`; `plain` says which ones beyond the escapes stand for
themselves. -/
def quotedChar (plain : Char → Bool) (mark c : Char) : String :=
  if c = mark || c = '\\' then "\\" ++ c.toString
  else if c = '\n' then "\\n"
  else if c = '\r' then "\\r"
  else if c = '\t' then "\\t"
  else if plain c then c.toString
  else codeEscape c.toNat

/-- The quote that a text is put in. -/
def quoteMark (s : String) : Char :=
  if s.toList.contains '\'' && !s.toList.contains '"' then '"' else '\''

/-- A text in quotes, where `plain` says which characters need no escape. -/
def quotedBy (plain : Char → Bool) (s : String) : String :=
  let mark := quoteMark s
  mark.toString ++ String.join (s.toList.map (quotedChar plain mark)) ++ mark.toString

/-- A text in quotes, printable characters as they are. -/
def quoted (s : String) : String := quotedBy isPrintable s

/-- A text in quotes, printable ASCII as it is and all else escaped. -/
def quotedAscii (s : String) : String :=
  quotedBy (fun c => c.val < 0x80 && isPrintable c) s

end Stageflow.Text
