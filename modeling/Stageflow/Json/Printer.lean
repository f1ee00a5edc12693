import Stageflow.Json.Basic
import Stageflow.Number.Decimal
import Stageflow.Text.Quoted

/-!
# JSON text

Two ways to write a value: on one line (`Json.compact`) and over lines, two blanks a level
(`Json.indented`). Fields keep their order, and everything outside ASCII is escaped.
-/

namespace Stageflow.Json

/-- The layout of numbers in JSON text. -/
def numberLayout : Binary64.Layout := ⟨-3, 16, "Infinity", "NaN"⟩

/-- The escape of a UTF-16 unit. -/
def unitEscape (n : Nat) : String := "\\u" ++ Text.hexDigits 4 n

/-- A character inside a JSON string: a pair of units beyond the basic plane. -/
def escapeChar (c : Char) : String :=
  if c = '"' then "\\\""
  else if c = '\\' then "\\\\"
  else if c = '\n' then "\\n"
  else if c = '\r' then "\\r"
  else if c = '\t' then "\\t"
  else if c = '\x08' then "\\b"
  else if c = '\x0c' then "\\f"
  else if 0x20 ≤ c.val && c.val < 0x7f then c.toString
  else if c.toNat < 0x10000 then unitEscape c.toNat
  else
    let n := c.toNat - 0x10000
    unitEscape (0xd800 + n / 0x400) ++ unitEscape (0xdc00 + n % 0x400)

/-- A string with its quotes. -/
def stringText (s : String) : String := "\"" ++ String.join (s.toList.map escapeChar) ++ "\""

/-- How the parts of a container are set apart: what follows the opening and precedes the closing
bracket, what stands between elements, and what follows a key. -/
structure Spacing where
  line : Nat → String
  afterComma : Nat → String
  afterKey : String

/-- Everything on one line. -/
def Spacing.oneLine : Spacing := ⟨fun _ => "", fun _ => ", ", ": "⟩

/-- A line for each element, two blanks a level. -/
def Spacing.indented : Spacing :=
  let line (level : Nat) := "\n" ++ String.ofList (List.replicate (2 * level) ' ')
  ⟨line, fun level => "," ++ line level, ": "⟩

mutual

/-- A value at a nesting level. -/
def textAt (spacing : Spacing) (level : Nat) : Json → String
  | .null => "null"
  | .bool true => "true"
  | .bool false => "false"
  | .int n => toString n
  | .real x => x.text numberLayout
  | .str s => stringText s
  | .arr [] => "[]"
  | .arr (x :: xs) =>
    "[" ++ spacing.line (level + 1) ++ textAt spacing (level + 1) x ++
      elementsAt spacing (level + 1) xs ++ spacing.line level ++ "]"
  | .obj [] => "\x7b\x7d"
  | .obj ((k, v) :: fs) =>
    "\x7b" ++ spacing.line (level + 1) ++ stringText k ++ spacing.afterKey ++
      textAt spacing (level + 1) v ++ fieldsAt spacing (level + 1) fs ++ spacing.line level ++
        "\x7d"

/-- The elements behind the first, each after a comma. -/
def elementsAt (spacing : Spacing) (level : Nat) : List Json → String
  | [] => ""
  | x :: xs => spacing.afterComma level ++ textAt spacing level x ++ elementsAt spacing level xs

/-- The fields behind the first, each after a comma. -/
def fieldsAt (spacing : Spacing) (level : Nat) : List (String × Json) → String
  | [] => ""
  | (k, v) :: fs =>
    spacing.afterComma level ++ stringText k ++ spacing.afterKey ++ textAt spacing level v ++
      fieldsAt spacing level fs

end

/-- The text of a value on one line. -/
def compact (value : Json) : String := textAt .oneLine 0 value

/-- The text of a value over lines, two blanks a level. -/
def indented (value : Json) : String := textAt .indented 0 value

end Stageflow.Json
