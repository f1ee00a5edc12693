import Stageflow.Json.Printer

/-!
# Plain YAML scalars

What a scalar without quotes stands for in YAML 1.1: nothing, a truth value, an integer in one of
five spellings, a floating point number in one of four, or else its own text. `Scalar.resolve`
decides.
-/

namespace Stageflow.Yaml.Scalar

/-- The spellings of null. -/
def nulls : List String := ["", "~", "null", "Null", "NULL"]

/-- The spellings of true. -/
def trues : List String :=
  ["yes", "Yes", "YES", "true", "True", "TRUE", "on", "On", "ON"]

/-- The spellings of false. -/
def falses : List String :=
  ["no", "No", "NO", "false", "False", "FALSE", "off", "Off", "OFF"]

/-- The sign in front, negative or not, and what follows it. -/
def takeSign : List Char → Bool × List Char
  | '-' :: cs => (true, cs)
  | '+' :: cs => (false, cs)
  | cs => (false, cs)

/-- Whether all characters of a run of at least one are digits of a base or underscores. -/
def isRun (isDigit : Char → Bool) (cs : List Char) : Bool :=
  !cs.isEmpty && cs.all fun c => c = '_' || isDigit c

/-- The value of digits in a base; underscores do not count. -/
def runValue (base : Nat) (cs : List Char) : Nat :=
  (cs.filter (· ≠ '_')).foldl (fun n c =>
    base * n + (if c.isDigit then c.toNat - '0'.toNat else c.toLower.toNat - 'a'.toNat + 10)) 0

/-- Whether a character is a digit of a small base. -/
def isBelow (base : Nat) (c : Char) : Bool := c.isDigit && c.toNat - '0'.toNat < base

/-- Whether a character is a hexadecimal digit. -/
def isHex (c : Char) : Bool := c.isDigit || ('a' ≤ c && c ≤ 'f') || ('A' ≤ c && c ≤ 'F')

/-- Whether a character begins a decimal run that is no octal one. -/
def isLeading (c : Char) : Bool := '1' ≤ c && c ≤ '9'

/-- A group behind a colon: one digit, or two of which the first is below six. -/
def isSixtieth : List Char → Bool
  | [a] => a.isDigit
  | [a, b] => isBelow 6 a && b.isDigit
  | _ => false

/-- The parts between colons. -/
def groups (cs : List Char) : List (List Char) := cs.splitOn ':'

/-- Groups to the base sixty. -/
def sexagesimal (parts : List (List Char)) : Nat :=
  parts.foldl (fun n part => 60 * n + runValue 10 part) 0

/-- The integer that unsigned characters spell: binary, octal, hexadecimal, decimal or sexagesimal.
-/
def natural? (cs : List Char) : Option Nat :=
  match cs with
  | '0' :: 'b' :: digits => if isRun (isBelow 2) digits then some (runValue 2 digits) else none
  | '0' :: 'x' :: digits => if isRun isHex digits then some (runValue 16 digits) else none
  | ['0'] => some 0
  | '0' :: digits => if isRun (isBelow 8) digits then some (runValue 8 digits) else none
  | first :: _ =>
    if isLeading first then
      match groups cs with
      | [whole] => if isRun Char.isDigit whole then some (runValue 10 whole) else none
      | whole :: rest =>
        if isRun Char.isDigit whole && rest.all isSixtieth then some (sexagesimal (whole :: rest))
        else none
      | [] => none
    else none
  | [] => none

/-- The integer that a scalar spells. -/
def integer? (cs : List Char) : Option Int :=
  let (negative, body) := takeSign cs
  (natural? body).map fun n => if negative then -n else n

/-- The exponent that ends a number: none, or a mark with a sign and digits. -/
def exponent? : List Char → Option Int
  | [] => some 0
  | mark :: sign :: digits =>
    if (mark = 'e' || mark = 'E') && (sign = '-' || sign = '+') && !digits.isEmpty &&
        digits.all Char.isDigit then
      let n : Int := runValue 10 digits
      some (if sign = '-' then -n else n)
    else none
  | _ => none

/-- Whether a character may stand in a run of decimal digits. -/
def inRun (c : Char) : Bool := c.isDigit || c = '_'

/-- A number with a point and perhaps an exponent; `leads` says whether digits stand before the
point. -/
def pointed? (negative : Bool) (cs : List Char) : Option Binary64 :=
  let whole := cs.takeWhile inRun
  match cs.dropWhile inRun with
  | '.' :: rest =>
    let places := rest.takeWhile inRun
    let value (power : Int) : Binary64 :=
      Binary64.ofDecimal negative (runValue 10 (whole ++ places))
        (power - ((places.filter (· ≠ '_')).length : Int))
    let starts (run : List Char) : Bool := (run.head?.map Char.isDigit).getD false
    if starts whole || (whole.isEmpty && starts places) then
      (exponent? (rest.dropWhile inRun)).map value
    else none
  | _ => none

/-- A sexagesimal number with a point in its last group. -/
def sexagesimal? (negative : Bool) (cs : List Char) : Option Binary64 :=
  let body := cs.takeWhile (· ≠ '.')
  match cs.dropWhile (· ≠ '.'), groups body with
  | '.' :: places, whole :: next :: rest =>
    if isRun Char.isDigit whole && (whole.head?.map Char.isDigit).getD false &&
        (next :: rest).all isSixtieth && places.all inRun then
      let digits := places.filter (· ≠ '_')
      let scale := Nat.pow 10 digits.length
      some (Binary64.ofRatio negative
        (sexagesimal (whole :: next :: rest) * scale + runValue 10 digits) scale)
    else none
  | _, _ => none

/-- The numbers that are written as words. -/
def word? (signed negative : Bool) (cs : List Char) : Option Binary64 :=
  let word := String.ofList cs
  if [".inf", ".Inf", ".INF"].contains word then some (.infinite negative)
  else if !signed && [".nan", ".NaN", ".NAN"].contains word then some .nan
  else none

/-- The floating point number that a scalar spells; one that begins with its point has no sign. -/
def real? (cs : List Char) : Option Binary64 :=
  let (negative, body) := takeSign cs
  let signed := body.length ≠ cs.length
  let pointed :=
    if signed && body.head? = some '.' then none else pointed? negative body
  ((word? signed negative body).orElse fun _ => pointed).orElse fun _ =>
    sexagesimal? negative body

/-- What a plain scalar stands for. -/
def resolve (text : String) : Json :=
  let cs := text.toList
  if nulls.contains text then .null
  else if trues.contains text then .bool true
  else if falses.contains text then .bool false
  else
    match real? cs with
    | some x => .real x
    | none =>
      match integer? cs with
      | some n => .int n
      | none => .str text

/-- The key that a value stands for in a mapping: a text itself, any other scalar its JSON text. -/
def keyText : Json → String
  | .str s => s
  | value => value.compact

end Stageflow.Yaml.Scalar
