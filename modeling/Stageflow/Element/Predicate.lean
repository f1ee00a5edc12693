import Stageflow.Element.Reading

/-!
# Predicates

A predicate tests one attribute of an item. A configured list is kept as its members: the operator
`within` looks a value up among them, while to the other operators a list of members differs from
every attribute.
-/

namespace Stageflow

/-- What a predicate asks of an attribute. -/
inductive Predicate.Operator where
  | equals
  | notEquals
  | within
  | present
  deriving DecidableEq, Repr

/-- What a predicate compares with: one value, or the members of a list. -/
inductive Predicate.Operand where
  | one (value : Json)
  | members (values : List Json)
  deriving Repr

/-- A test on the attributes of an item. -/
structure Predicate where
  subject : Json
  operator : Predicate.Operator
  operand : Predicate.Operand
  deriving Repr

namespace Predicate

/-- The name of an operator. -/
def Operator.name : Operator → String
  | .equals => "equals"
  | .notEquals => "not_equals"
  | .within => "in"
  | .present => "exists"

/-- The operator of a name. -/
def Operator.ofName? : String → Option Operator
  | "equals" => some .equals
  | "not_equals" => some .notEquals
  | "in" => some .within
  | "exists" => some .present
  | _ => none

/-- The operand of a configured value. -/
def Operand.ofJson : Json → Operand
  | .arr xs => .members xs
  | value => .one value

/-- The operand as a value. -/
def Operand.toJson : Operand → Json
  | .one value => value
  | .members values => .arr values

/-- Whether an operand equals an attribute. -/
def Operand.alike (actual : Json) : Operand → Bool
  | .one value => actual.alike value
  | .members _ => false

/-- Whether an attribute is among the members of an operand. -/
def Operand.has (actual : Json) : Operand → Bool
  | .one _ => false
  | .members values =>
    values.any fun value => actual.alike value || (actual.isUndefined && value.isUndefined)

/-- The attribute that a predicate looks at: only texts name attributes. -/
def lookup (p : Predicate) (attributes : Fields) : Except Defect (Option Json) :=
  if p.subject.isKey then .ok (p.subject.text?.bind fun name => attributes.get? name)
  else .error (.unhashable p.subject.kindName)

/-- Whether attributes pass the test; a missing attribute counts as null. -/
def holds (p : Predicate) (attributes : Fields) : Except Defect Bool := do
  let found ← p.lookup attributes
  let actual := found.getD .null
  return match p.operator with
    | .present => found.isSome
    | .equals => p.operand.alike actual
    | .notEquals => !p.operand.alike actual
    | .within => p.operand.has actual

/-- Reads a predicate from its fields. -/
def ofFields (fields : Fields) : Except Defect Predicate := do
  match fields.get? "attribute" with
  | none => throw .predicateShape
  | some subject =>
    let value := fields.getOr "op" (.str "equals")
    let word ← value.wordAmong ["equals", "not_equals", "in", "exists"]
    match word.bind Operator.ofName? with
    | some operator => return ⟨subject, operator, Operand.ofJson (fields.getOrNull "value")⟩
    | none => throw (.predicateOp (← value.written))

/-- Reads a predicate; null stands for none. -/
def parse? : Json → Except Defect (Option Predicate)
  | .null => .ok none
  | .obj fields => (ofFields fields).map some
  | _ => .error .predicateShape

end Predicate

end Stageflow
