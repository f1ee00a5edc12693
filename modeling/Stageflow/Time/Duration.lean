import Stageflow.Element.Defect
import Stageflow.Text.Numeral

/-!
# Durations

A duration in a document is a number of seconds, or a text: digits with an optional fraction and an
optional unit `s`, `m`, `h` or `d`, blanks between them allowed.
-/

namespace Stageflow

namespace Json

/-- The number a value stands for: a number itself, a truth value, or a text that spells one. -/
def number : Json → Except Defect Binary64
  | .int n =>
    match Binary64.ofInt? n with
    | some x => .ok x
    | none => .error .tooLarge
  | .real x => .ok x
  | .bool b => .ok (Binary64.ofQuotient (if b then 1 else 0) 1)
  | .str s =>
    match Text.numeral? s with
    | some x => .ok x
    | none => .error (.numberText s)
  | value => .error (.numberKind value.kindName)

end Json

namespace Duration

/-- The seconds that a unit stands for; no unit is seconds. -/
def unitSeconds? : List Char → Option Nat
  | [] => some 1
  | ['s'] => some 1
  | ['m'] => some 60
  | ['h'] => some 3600
  | ['d'] => some 86400
  | _ => none

/-- The digits in front, with a fraction if a point and a digit follow them, and what is left. The
fraction is given as its digits. -/
def takeAmount (cs : List Char) : List Char × List Char × List Char :=
  let whole := cs.takeWhile Text.isDecimal
  let rest := cs.dropWhile Text.isDecimal
  match rest with
  | '.' :: more =>
    let fraction := more.takeWhile Text.isDecimal
    if fraction.isEmpty then (whole, [], rest) else (whole, fraction, more.dropWhile Text.isDecimal)
  | _ => (whole, [], rest)

/-- The seconds that a text spells. -/
def ofText? (s : String) : Option Binary64 :=
  let (whole, fraction, rest) := takeAmount (s.toList.dropWhile Text.isBlank)
  if whole.isEmpty then none
  else
    let amount := Binary64.ofDecimal false (Text.digitsValue (whole ++ fraction))
      (-(fraction.length : Int))
    (unitSeconds? (Text.trimBlank rest)).map fun unit =>
      amount.mul (Binary64.ofQuotient unit 1)

/-- The seconds of a duration in a document. -/
def parse (value : Json) : Except Defect Binary64 :=
  match value with
  | .bool _ => .error (.durationTruth value)
  | .int n => if n < 0 then .error (.durationNegative value) else value.number
  | .real x => if x.isNegative then .error (.durationNegative value) else .ok x
  | .str s =>
    match ofText? s with
    | some x => .ok x
    | none => .error (.durationUnread value)
  | _ => .error (.durationUnread value)

end Duration

end Stageflow
