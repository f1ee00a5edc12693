import Stageflow.Time.Duration

/-!
# Reading fields

How the fields of a raw element are looked up. `Fields.require` wants a field, `Fields.texts` reads
a field that holds one text or a list of texts, and `identifier` admits ids.
-/

namespace Stageflow

namespace Json

/-- The fields of a raw element; what has no fields cannot be read. -/
def elementFields : Json → Except Defect Fields
  | .obj fields => .ok fields
  | _ => .error .subscript

/-- The members that a walk over a value passes: those of an array, the keys of an object, the
characters of a text. -/
def members : Json → Except Defect (List Json)
  | .arr xs => .ok xs
  | .obj fields => .ok (fields.map fun p => .str p.1)
  | .str s => .ok (s.toList.map fun c => .str c.toString)
  | value => .error (.notIterable value.kindName)

/-- The word a value is among some words; arrays and objects cannot be looked up. -/
def wordAmong (words : List String) (value : Json) : Except Defect (Option String) :=
  if value.isKey then
    .ok (value.text?.bind fun s => if words.contains s then some s else none)
  else .error (.unhashable value.kindName)

end Json

namespace Fields

/-- The value under a key that has to be there. -/
def require (key : String) (fields : Fields) : Except Defect Json :=
  match fields.get? key with
  | some value => .ok value
  | none => .error (.missing key)

/-- The texts under a key: none for null or no field, one for a text, else a list of texts. -/
def texts (key what : String) (fields : Fields) : Except Defect (List String) :=
  match fields.get? key with
  | none | some .null => .ok []
  | some (.str s) => .ok [s]
  | some (.arr xs) =>
    match xs.mapM Json.text? with
    | some texts => .ok texts
    | none => .error (.notText what key)
  | some _ => .error (.notText what key)

/-- The members under a key; a value that does not count as true has none. -/
def membersOf (key : String) (fields : Fields) : Except Defect (List Json) :=
  match fields.get? key with
  | none => .ok []
  | some value => if value.truthy then value.members else .ok []

end Fields

/-- A value as an identifier. -/
def identifier (what : String) (value : Json) : Except Defect String :=
  match value with
  | .str s => if Text.isIdentifier s then .ok s else .error (.badId what value)
  | _ => .error (.badId what value)

end Stageflow
