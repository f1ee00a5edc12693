import Stageflow.Number.Binary64

/-!
# Decimal text of floating point numbers

Reading: a run of digits with a decimal exponent is one exact ratio, rounded once
(`Binary64.ofDecimal`). Writing: the fewest digits that read back (`Binary64.shortest`), laid out by
a `Layout` record.
-/

namespace Stageflow

namespace Binary64

/-- The number written as `± digits * 10 ^ exponent`. Exponents beyond the range of the format are
cut off before any power is taken. -/
def ofDecimal (negative : Bool) (digits : Nat) (exponent : Int) : Binary64 :=
  if digits = 0 then zero negative
  else
    let size : Int := (digits.log2 : Int) / 3 + 1
    if 400 < exponent then .infinite negative
    else if exponent + size < -400 then zero negative
    else ofRatio negative (digits * Nat.pow 10 exponent.toNat) (Nat.pow 10 (-exponent).toNat)

/-- Decimal digits and the exponent of the last one: the value `digits * 10 ^ exponent`. -/
structure Digits where
  digits : Nat
  exponent : Int
  deriving DecidableEq, Repr

/-- Drops the trailing zeros of a digit run. The fuel is the number of digits. -/
def Digits.trim (fuel : Nat) (d : Digits) : Digits :=
  match fuel with
  | 0 => d
  | fuel + 1 =>
    if d.digits ≠ 0 ∧ d.digits % 10 = 0 then
      Digits.trim fuel ⟨d.digits / 10, d.exponent + 1⟩
    else d

/-- The two multiples of `10 ^ exponent` around `num / den`, the lower one rounded down. -/
def neighbours (num den : Nat) (exponent : Int) : Nat × Nat :=
  let n := num * Nat.pow 10 (-exponent).toNat
  let d := den * Nat.pow 10 exponent.toNat
  (n / d, n / d + 1)

/-- Of the two neighbours on the grid of `10 ^ exponent`, the one that reads back as the number; of
two such, the nearer one, and the even one if both are equally near. -/
def onGrid? (significand : Nat) (binaryExponent : Int) (exponent : Int) : Option Nat :=
  let num := significand * Nat.pow 2 binaryExponent.toNat
  let den := Nat.pow 2 (-binaryExponent).toNat
  let (low, high) := neighbours num den exponent
  let reads (k : Nat) : Bool :=
    k ≠ 0 && ofDecimal false k exponent = .finite false significand binaryExponent
  match reads low, reads high with
  | true, true =>
    let nearest :=
      nearestEven (num * Nat.pow 10 (-exponent).toNat) (den * Nat.pow 10 exponent.toNat)
    some nearest
  | true, false => some low
  | false, true => some high
  | false, false => none

/-- Tries ever finer grids, at most `fuel` of them, and ends with the grid it stopped at. -/
def search (significand : Nat) (binaryExponent : Int) (fuel : Nat) (exponent : Int) : Digits :=
  match fuel with
  | 0 => ⟨0, exponent⟩
  | fuel + 1 =>
    match onGrid? significand binaryExponent exponent with
    | some k => ⟨k, exponent⟩
    | none => search significand binaryExponent fuel (exponent - 1)

/-- Number of decimal digits, `1` for zero. -/
def digitCount (n : Nat) : Nat := (Nat.toDigits 10 n).length

/-- The decimal exponent of the leading digit of `num / den`, or one more. -/
def leadingExponent (num den : Nat) : Int :=
  (digitCount num : Int) - digitCount den + 1

/-- The fewest decimal digits that read back as the positive number
`significand * 2 ^ exponent`, without trailing zeros. -/
def shortest (significand : Nat) (exponent : Int) : Digits :=
  let num := significand * Nat.pow 2 exponent.toNat
  let den := Nat.pow 2 (-exponent).toNat
  (search significand exponent 22 (leadingExponent num den)).trim 22

/-! ## Layout -/

/-- How a number is spelt: leading digits in positions `leastPlain` to `greatestPlain` are written
without an exponent (the position is that of the point behind the first digit), and the three
texts are those of the numbers that have no digits. -/
structure Layout where
  leastPlain : Int
  greatestPlain : Int
  infinity : String
  undefined : String
  deriving DecidableEq, Repr

/-- Numbers are plain from `0.0001` to below `10 ^ 16`, and otherwise have an exponent of at least
two digits with its sign. -/
def Layout.standard : Layout := ⟨-3, 16, "inf", "nan"⟩

/-- A signed exponent of at least two digits. -/
def exponentText (e : Int) : String :=
  let body := toString e.natAbs
  (if e < 0 then "-" else "+") ++ (if body.length < 2 then "0" ++ body else body)

/-- Digits with the point behind position `point`, a zero filled in where a side would be empty. -/
def plainText (digits : String) (point : Int) : String :=
  let n : Int := digits.length
  if point ≤ 0 then "0." ++ String.ofList (List.replicate (-point).toNat '0') ++ digits
  else if n ≤ point then digits ++ String.ofList (List.replicate (point - n).toNat '0') ++ ".0"
  else String.ofList (digits.toList.take point.toNat) ++ "." ++
    String.ofList (digits.toList.drop point.toNat)

/-- Digits in scientific notation, without a point if there is one digit. -/
def scientificText (digits : String) (point : Int) : String :=
  let tail := String.ofList (digits.toList.drop 1)
  String.ofList (digits.toList.take 1) ++ (if tail.isEmpty then "" else "." ++ tail) ++ "e" ++
    exponentText (point - 1)

/-- The text of a number in a layout. -/
def text (layout : Layout) : Binary64 → String
  | .nan => layout.undefined
  | .infinite s => (if s then "-" else "") ++ layout.infinity
  | .finite s 0 _ => (if s then "-" else "") ++ "0.0"
  | .finite s m e =>
    let d := shortest m e
    let digits := toString d.digits
    let point : Int := digits.length + d.exponent
    (if s then "-" else "") ++
      (if layout.leastPlain ≤ point ∧ point ≤ layout.greatestPlain then plainText digits point
       else scientificText digits point)

/-- The standard text of a number. -/
def toText (x : Binary64) : String := x.text .standard

/-- The digits of a number scaled by `10 ^ places`, rounded to an integer, a tie to the even one,
with the point behind the leading ones. Without places there is no point. -/
def placedDigits (significand : Nat) (exponent : Int) (places : Nat) : String × String :=
  let scaled := nearestEven (significand * Nat.pow 2 exponent.toNat * Nat.pow 10 places)
    (Nat.pow 2 (-exponent).toNat)
  let body := toString scaled
  let padded := List.replicate (places + 1 - body.length) '0' ++ body.toList
  let cut := padded.length - places
  (String.ofList (padded.take cut), String.ofList (padded.drop cut))

/-- A fraction behind its point, if there is one. -/
def pointed (fraction : String) : String := if fraction.isEmpty then "" else "." ++ fraction

/-- A number with a fixed count of decimal places; a tie of the exact value goes to the even last
digit. -/
def fixedText (places : Nat) : Binary64 → String
  | .nan => "nan"
  | .infinite s => (if s then "-" else "") ++ "inf"
  | .finite s m e =>
    let (whole, fraction) := placedDigits m e places
    (if s then "-" else "") ++ whole ++ pointed fraction

/-- `significand * 2 ^ exponent` rounded to `count` significant digits, and the power of ten of the
first one. Zero has the power zero. -/
def significant (count significand : Nat) (exponent : Int) : String × Int :=
  let num := significand * Nat.pow 2 exponent.toNat
  let den := Nat.pow 2 (-exponent).toNat
  if num = 0 then (String.ofList (List.replicate count '0'), 0)
  else
    let guess := leadingExponent num den
    let lead := if den * Nat.pow 10 guess.toNat ≤ num * Nat.pow 10 (-guess).toNat then guess
      else if den * Nat.pow 10 (guess - 1).toNat ≤ num * Nat.pow 10 (1 - guess).toNat then guess - 1
      else guess - 2
    let shift : Int := count - 1 - lead
    let rounded := nearestEven (num * Nat.pow 10 shift.toNat) (den * Nat.pow 10 (-shift).toNat)
    let text := toString rounded
    if count < text.length then (String.ofList (text.toList.take count), lead + 1) else (text, lead)

/-- A number in scientific notation with a fixed count of decimal places. -/
def scientificPlaces (places : Nat) : Binary64 → String
  | .nan => "nan"
  | .infinite s => (if s then "-" else "") ++ "inf"
  | .finite s m e =>
    let (digits, lead) := significant (places + 1) m e
    (if s then "-" else "") ++ String.ofList (digits.toList.take 1) ++
      pointed (String.ofList (digits.toList.drop 1)) ++ "e" ++ exponentText lead

/-- Drops the zeros that end a fraction. -/
def dropZeros (fraction : List Char) : List Char :=
  (fraction.reverse.dropWhile (· = '0')).reverse

/-- A number with at most `count` significant digits: plain if the point is near, else with an
exponent; zeros at the end of the fraction are kept only if wanted. A `dotted` number has a point
wherever it is plain, and is plain below one power of ten less. -/
def generalText (count : Nat) (keepZeros dotted : Bool) : Binary64 → String
  | .nan => "nan"
  | .infinite s => (if s then "-" else "") ++ "inf"
  | .finite s m e =>
    let count := max count 1
    let (digits, lead) := significant count m e
    let cs := digits.toList
    let ends (fraction : List Char) : String :=
      pointed (String.ofList (if keepZeros then fraction else dropZeros fraction))
    (if s then "-" else "") ++
      (if lead < -4 || (count : Int) - (if dotted then 1 else 0) ≤ lead then
        String.ofList (cs.take 1) ++ ends (cs.drop 1) ++ "e" ++ exponentText lead
      else if lead < 0 then "0" ++ ends (List.replicate (-lead - 1).toNat '0' ++ cs)
      else
        let fraction := ends (cs.drop (lead.toNat + 1))
        String.ofList (cs.take (lead.toNat + 1)) ++
          (if dotted && fraction.isEmpty then ".0" else fraction))

/-- The text of a number with a point behind its leading digits, if it has digits and no point. -/
def withPoint (text : List Char) : List Char :=
  let whole := text.takeWhile Char.isDigit
  if whole.isEmpty || text.contains '.' then text
  else whole ++ '.' :: text.dropWhile Char.isDigit

/-- The number without its sign. -/
def magnitudeOf : Binary64 → Binary64
  | .finite _ m e => .finite false m e
  | .infinite _ => .infinite false
  | .nan => .nan

/-- Whether a number carries a minus sign. -/
def carriesMinus : Binary64 → Bool
  | .finite s _ _ | .infinite s => s
  | .nan => false

end Binary64

end Stageflow
