import Stageflow.Number.Binary64
import Stageflow.Table

/-!
# JSON values

The values that documents, item attributes and event payloads are written in. Objects keep the order
of their fields, and each key occurs once. `Json.alike` is the equality that predicates compare by:
numbers are compared by value across their kinds, and the truth values count as one and zero.
-/

namespace Stageflow

/-- A JSON value. Integers are unbounded and kept apart from floating point numbers. -/
inductive Json where
  | null
  | bool (value : Bool)
  | int (value : Int)
  | real (value : Binary64)
  | str (value : String)
  | arr (elements : List Json)
  | obj (fields : List (String × Json))
  deriving Repr, Inhabited

/-- The fields of an object, in order. -/
abbrev Fields := Table String Json

/-- The value under a key, or another one if the key does not occur. -/
def Fields.getOr (key : String) (other : Json) (fields : Fields) : Json :=
  (fields.get? key).getD other

/-- The value under a key, or null. -/
def Fields.getOrNull (key : String) (fields : Fields) : Json := fields.getOr key .null

namespace Json

/-- Whether a value is null. -/
def isNull : Json → Bool
  | .null => true
  | _ => false

/-- An array of texts. -/
def strings (texts : List String) : Json := .arr (texts.map .str)

/-- A text, or null. -/
def ofText? : Option String → Json
  | some s => .str s
  | none => .null

/-- The text of a string value. -/
def text? : Json → Option String
  | .str s => some s
  | _ => none

/-- The fields of an object value. -/
def fields? : Json → Option Fields
  | .obj fs => some fs
  | _ => none

/-- Whether a value counts as true in a condition: null, false, zero and whatever is empty do not.
-/
def truthy : Json → Bool
  | .null => false
  | .bool b => b
  | .int n => n ≠ 0
  | .real x => !x.isZero
  | .str s => !s.isEmpty
  | .arr xs => !xs.isEmpty
  | .obj fs => !fs.isEmpty

/-- The value, or another one if it does not count as true. -/
def orElse (value other : Json) : Json := if value.truthy then value else other

/-- Whether a value can be looked up as a key: arrays and objects cannot. -/
def isKey : Json → Bool
  | .arr _ | .obj _ => false
  | _ => true

/-- The place of a number on the number line; the truth values stand for one and zero. `some none`
is the undefined number, and what is no number has no place. -/
def place? : Json → Option (Option Extended)
  | .bool b => some (some (.at (if b then 1 else 0)))
  | .int n => some (some (.at n))
  | .real x => some x.place?
  | _ => none

/-- Whether two places are the same; the undefined number has none. -/
def samePlace : Option Extended → Option Extended → Bool
  | some a, some b => a = b
  | _, _ => false

/-- Whether the value is the undefined number. -/
def isUndefined : Json → Bool
  | .real .nan => true
  | _ => false

mutual

/-- Equality of values: numbers by value across their kinds, arrays element by element, objects by
key whatever the order. The undefined number differs from itself, but not inside arrays and objects.
-/
def alike : Json → Json → Bool
  | .null, .null => true
  | .str a, .str b => a = b
  | .arr xs, .arr ys => alikeAll xs ys
  | .obj xs, .obj ys => xs.length = ys.length && alikeFields xs ys
  | a, b =>
    match a.place?, b.place? with
    | some p, some q => samePlace p q
    | _, _ => false

/-- Equality of arrays. -/
def alikeAll : List Json → List Json → Bool
  | [], [] => true
  | x :: xs, y :: ys => (alike x y || (x.isUndefined && y.isUndefined)) && alikeAll xs ys
  | _, _ => false

/-- Whether every field has an equal one under its key. -/
def alikeFields : List (String × Json) → List (String × Json) → Bool
  | [], _ => true
  | (k, v) :: rest, ys =>
    (match Table.get? k ys with
      | some w => alike v w || (v.isUndefined && w.isUndefined)
      | none => false) && alikeFields rest ys

end

end Json

end Stageflow
