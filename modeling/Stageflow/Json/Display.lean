import Stageflow.Json.Basic
import Stageflow.Number.Decimal
import Stageflow.Text.Quoted

/-!
# Values inside messages

How a value is named in a message: `Json.quoted` is unambiguous (texts in quotes), `Json.display` is
the same but for a text, which stands there as it is. Both are for values that can be written
(`Json.isWritable`). `Json.kindName` names the kind of a value.
-/

namespace Stageflow.Json

/-- The name of a value's kind. -/
def kindName : Json → String
  | .null => "NoneType"
  | .bool _ => "bool"
  | .int _ => "int"
  | .real _ => "float"
  | .str _ => "str"
  | .arr _ => "list"
  | .obj _ => "dict"

/-- The most digits that an integer may be read or written with. -/
def mostDigits : Nat := 4300

mutual

/-- Whether a value can be written: an integer of too many digits cannot, wherever it stands. -/
def isWritable : Json → Bool
  | .int n => n.natAbs < Nat.pow 10 mostDigits
  | .arr xs => areWritable xs
  | .obj fs => haveWritable fs
  | _ => true

/-- Whether all elements can be written. -/
def areWritable : List Json → Bool
  | [] => true
  | x :: rest => isWritable x && areWritable rest

/-- Whether the values of all fields can be written. -/
def haveWritable : List (String × Json) → Bool
  | [] => true
  | (_, v) :: rest => isWritable v && haveWritable rest

end

@[simp] theorem isWritable_str {s : String} : (str s).isWritable := by simp [isWritable]

@[simp] theorem isWritable_null : null.isWritable := by simp [isWritable]

theorem areWritable_iff {xs : List Json} : areWritable xs ↔ ∀ x ∈ xs, x.isWritable := by
  induction xs with
  | nil => simp [areWritable]
  | cons x rest ih => simp [areWritable, ih]

theorem haveWritable_iff {fs : List (String × Json)} :
    haveWritable fs ↔ ∀ p ∈ fs, p.2.isWritable := by
  induction fs with
  | nil => simp [haveWritable]
  | cons p rest ih => simp [haveWritable, ih]

/-- The least power of ten that cannot be written. -/
def tooLong : Json := .int ((Nat.pow 10 mostDigits : Nat) : Int)

theorem isWritable_tooLong : tooLong.isWritable = false := by
  unfold tooLong isWritable
  generalize Nat.pow 10 mostDigits = bound
  simp

/-- What is said of a value that cannot be written. -/
def unwritable : String :=
  s!"Exceeds the limit ({mostDigits} digits) for integer string conversion; " ++
    "use sys.set_int_max_str_digits() to increase the limit"

mutual

/-- A value with its texts in quotes. -/
def quoted : Json → String
  | .null => "None"
  | .bool true => "True"
  | .bool false => "False"
  | .int n => toString n
  | .real x => x.toText
  | .str s => Text.quoted s
  | .arr xs => "[" ++ quotedList xs ++ "]"
  | .obj fs => "\x7b" ++ quotedFields fs ++ "\x7d"

/-- Elements with commas between them. -/
def quotedList : List Json → String
  | [] => ""
  | [x] => quoted x
  | x :: y :: rest => quoted x ++ ", " ++ quotedList (y :: rest)

/-- Fields with commas between them. -/
def quotedFields : List (String × Json) → String
  | [] => ""
  | [(k, v)] => Text.quoted k ++ ": " ++ quoted v
  | (k, v) :: p :: rest => Text.quoted k ++ ": " ++ quoted v ++ ", " ++ quotedFields (p :: rest)

end

/-- A value as it stands in running text. -/
def display : Json → String
  | .str s => s
  | value => quoted value

end Stageflow.Json
