import Stageflow.Text.Template.Layout

/-!
# Templates

Filling in a template: each field is replaced by the value of its variable, and a field whose
variable is unknown by its name in braces. The values are inserted as they are and not filled in
again.
-/

namespace Stageflow.Template

/-- What a field leads to: a value, or the kind of one. -/
inductive Target where
  | value (v : Json)
  | kind (name : String)
  deriving Repr

namespace Target

/-- The name of a target's kind. -/
def kindName : Target → String
  | .value v => v.kindName
  | .kind _ => "type"

/-- A target in running text. -/
def display : Target → String
  | .value v => v.display
  | .kind name => s!"<class '{name}'>"

/-- A target with its texts in quotes. -/
def quoted : Target → String
  | .value v => v.quoted
  | t => t.display

/-- A target with its texts in quotes, in ASCII. -/
def quotedAscii (t : Target) : String :=
  String.join (t.quoted.toList.map fun c =>
    if c.val < 0x80 then c.toString else Text.codeEscape c.toNat)

/-- The value of an integer or a truth value as an integer. -/
def integer? : Target → Option Int
  | .value (.int n) => some n
  | .value (.bool b) => some (if b then 1 else 0)
  | _ => none

/-- An attribute of a target: its kind, and the parts of a number. -/
def attr (t : Target) (name : String) : Except Fault Target :=
  match name, t.integer?, t with
  | "__class__", _, t => .ok (.kind t.kindName)
  | "real", some n, _ | "numerator", some n, _ => .ok (.value (.int n))
  | "imag", some _, _ => .ok (.value (.int 0))
  | "real", _, .value (.real x) => .ok (.value (.real x))
  | "imag", _, .value (.real _) => .ok (.value (.real (.zero false)))
  | "denominator", some _, _ => .ok (.value (.int 1))
  | "__name__", _, .kind k | "__qualname__", _, .kind k => .ok (.value (.str k))
  | "__module__", _, .kind _ => .ok (.value (.str "builtins"))
  | _, _, .kind k => .error (.noAttribute s!"type object '{k}'" name)
  | _, _, t => .error (.noAttribute t.kindName name)

/-- An item of a target, by an index or by a text. -/
def item (t : Target) (name : List Char) (index : Option Nat) : Except Fault Target :=
  match t, index with
  | .value (.str s), some i =>
    match s.toList[i]? with
    | some c => .ok (.value (.str c.toString))
    | none => .error (.outOfRange "str")
  | .value (.arr xs), some i =>
    match xs[i]? with
    | some v => .ok (.value v)
    | none => .error (.outOfRange "list")
  | .value (.str _), none => .error (.textIndex "str")
  | .value (.arr _), none => .error (.textIndex "list")
  | .value (.obj fields), none =>
    match Table.get? (String.ofList name) fields with
    | some v => .ok (.value v)
    | none => .error (.noField (String.ofList name))
  | .value (.obj _), some i => .error (.noPosition i)
  | t, _ => .error (.noItems t.kindName)

/-- Follows steps from a target. -/
def follow : Target → List Step → Except Fault Target
  | t, [] => .ok t
  | t, .attr name :: rest => do follow (← t.attr (String.ofList name)) rest
  | t, .item name :: rest => do follow (← t.item name (← index? name)) rest
  | _, .broken fault :: _ => .error fault

/-- A target as a text, if it can be written. -/
def asText (t : Target) (text : String) : Except Fault Target :=
  match t with
  | .value v => (written v text).map fun s => .value (.str s)
  | .kind _ => .ok (.value (.str text))

/-- Applies a conversion. -/
def convert (t : Target) : Option Char → Except Fault Target
  | none => .ok t
  | some 'r' => t.asText t.quoted
  | some 's' => t.asText t.display
  | some 'a' => t.asText t.quotedAscii
  | some c => .error (.conversionUnknown c)

/-- Lays out a target. -/
def layOut (spec : List Char) : Target → Except Fault String
  | .value v => Template.layOut spec v
  | t => if spec.isEmpty then .ok t.display else .error (.specRefused t.kindName)

end Target

/-- The value of a variable; an unknown one stands for its name in braces. -/
def binding (bindings : Fields) (name : List Char) : Json :=
  (bindings.get? (String.ofList name)).getD
    (.str (String.ofList ('\x7b' :: name ++ ['\x7d'])))

/-- What the name of a field leads to. A name has to start with a variable. -/
def resolve (bindings : Fields) (name : List Char) : Except Fault Target := do
  let (first, steps) := splitName name
  let position ← index? first
  if first.isEmpty || position.isSome then throw .positional
  Target.follow (.value (binding bindings first)) steps

/-- Fills in one piece; `inner` fills in a specification that holds fields itself. -/
def fillPiece (bindings : Fields) (inner : List Char → Except Fault String) :
    Piece → Except Fault String
  | .char c => .ok c.toString
  | .broken fault => .error fault
  | .field f => do
    let target ← (← resolve bindings f.name).convert f.conversion
    let spec ← if f.nested then (inner f.spec).map String.toList else pure f.spec
    target.layOut spec

/-- Fills in a template whose fields may be nested to a depth. -/
def fillTo (bindings : Fields) : Nat → List Char → Except Fault String
  | 0, _ => .error .tooDeep
  | depth + 1, template => do
    let texts ← (scan template).mapM (fillPiece bindings (fillTo bindings depth))
    return String.join texts

/-- Fills in a template: fields may stand in the specification of a field, but not deeper. -/
def fill (bindings : Fields) (template : String) : Except Fault String :=
  fillTo bindings 2 template.toList

/-- Fills in a text; other values stay as they are. -/
def fillValue (bindings : Fields) : Json → Except Fault Json
  | .str s => (fill bindings s).map .str
  | value => .ok value

end Stageflow.Template
