import Stageflow.Number.Decimal
import Stageflow.Text.Character

/-!
# Numbers written as text

A number may be written with a sign, a point and an exponent, in the decimal digits of any script,
with blanks around it and an underscore between two digits. Infinities and the undefined number are
written as words, in any case.
-/

namespace Stageflow.Text

/-- Digits of a numeral in ASCII; other characters stay. -/
def asciiDigit (c : Char) : Char :=
  match digitValue? c with
  | some d => Char.ofNat (0x30 + d)
  | none => c

/-- Blanks around a numeral: white space, but not the four separators of information. -/
def isNumeralBlank (c : Char) : Bool := isBlank c && !(0x1c ≤ c.val && c.val ≤ 0x1f)

/-- The characters without blanks at both ends. -/
def trimNumeral (cs : List Char) : List Char :=
  ((cs.dropWhile isNumeralBlank).reverse.dropWhile isNumeralBlank).reverse

/-- Whether every underscore stands between two digits; `before` is the character before. -/
def underscoresFit (before : Char) : List Char → Bool
  | [] => before ≠ '_'
  | c :: cs =>
    (if c = '_' then before.isDigit else before ≠ '_' || c.isDigit) && underscoresFit c cs

/-- The sign in front, negative or not, and what follows it. -/
def takeSign : List Char → Bool × List Char
  | '-' :: cs => (true, cs)
  | '+' :: cs => (false, cs)
  | cs => (false, cs)

/-- The exponent that ends a numeral: none, or a mark with a sign and digits. -/
def exponent? : List Char → Option Int
  | [] => some 0
  | c :: cs =>
    if c = 'e' || c = 'E' then
      let (negative, digits) := takeSign cs
      if digits.isEmpty || !digits.all Char.isDigit then none
      else some (if negative then -(digitsValue digits : Int) else digitsValue digits)
    else none

/-- An unsigned numeral of ASCII digits. -/
def unsigned? (negative : Bool) (cs : List Char) : Option Binary64 :=
  let whole := cs.takeWhile Char.isDigit
  let rest := cs.dropWhile Char.isDigit
  let (fraction, tail) :=
    match rest with
    | '.' :: more => (more.takeWhile Char.isDigit, more.dropWhile Char.isDigit)
    | _ => ([], rest)
  if whole.isEmpty && fraction.isEmpty then none
  else
    (exponent? tail).map fun e =>
      Binary64.ofDecimal negative (digitsValue (whole ++ fraction)) (e - fraction.length)

/-- The numbers that are written as words. -/
def numberWord? (negative : Bool) (word : List Char) : Option Binary64 :=
  let lower := String.ofList (word.map Char.toLower)
  if lower = "inf" || lower = "infinity" then some (.infinite negative)
  else if lower = "nan" then some .nan
  else none

/-- The number that a text spells. -/
def numeral? (s : String) : Option Binary64 :=
  let cs := (trimNumeral s.toList).map asciiDigit
  if underscoresFit 'x' cs then
    let (negative, body) := takeSign (cs.filter (· ≠ '_'))
    (numberWord? negative body).orElse fun _ => unsigned? negative body
  else none

end Stageflow.Text
