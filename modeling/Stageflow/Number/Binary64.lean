/-!
# Binary floating point numbers

The 64-bit binary numbers that documents hold and that durations, limits and averages are computed
in. A finite number is kept as its sign, an integral significand and a power of two, so its value is
an exact rational (`Binary64.toRat?`) and every operation is the exact result, rounded once.

`Binary64.ofRatio` is the rounding: to nearest, a tie to the even significand, overflow to an
infinity. All other operations are stated through it.
-/

namespace Stageflow

/-- A binary64 number. A finite one is `± significand * 2 ^ exponent`; in normal form the
significand is below `2 ^ 53`, the exponent at least `-1074`, and the significand reaches `2 ^ 52`
unless the exponent is the least one. Zero keeps its sign. -/
inductive Binary64 where
  | finite (negative : Bool) (significand : Nat) (exponent : Int)
  | infinite (negative : Bool)
  | nan
  deriving DecidableEq, Repr, Inhabited

namespace Binary64

/-- Exponent of the smallest positive number. -/
def leastExponent : Int := -1074

/-- Exponent of the largest finite numbers. -/
def greatestExponent : Int := 971

/-- The zero of a sign. -/
def zero (negative : Bool) : Binary64 := .finite negative 0 leastExponent

/-! ## Rounding -/

/-- The integer nearest to `num / den`, the even one of two equally near. -/
def nearestEven (num den : Nat) : Nat :=
  let q := num / den
  let r := num % den
  if 2 * r < den then q
  else if den < 2 * r then q + 1
  else if q % 2 = 0 then q else q + 1

/-- The exponent of the last place of `num / den`, both positive: the quotient by that power of two
lies in `[2 ^ 52, 2 ^ 53)`, unless the exponent is the least one. -/
def placeExponent (num den : Nat) : Int :=
  let top : Int := (num.log2 : Int) - den.log2
  let floorLog := if den * Nat.pow 2 top.toNat ≤ num * Nat.pow 2 (-top).toNat then top else top - 1
  max (floorLog - 52) leastExponent

/-- Packs a rounded significand: a carry to `2 ^ 53` moves to the next exponent, and an exponent
past the greatest gives an infinity. -/
def pack (negative : Bool) (significand : Nat) (exponent : Int) : Binary64 :=
  let carried := significand = Nat.pow 2 53
  let m := if carried then Nat.pow 2 52 else significand
  let e := if carried then exponent + 1 else exponent
  if greatestExponent < e then .infinite negative else .finite negative m e

/-- `± num / den` rounded to nearest, a tie to the even significand. A zero denominator gives no
number. -/
def ofRatio (negative : Bool) (num den : Nat) : Binary64 :=
  if den = 0 then .nan
  else if num = 0 then zero negative
  else
    let e := placeExponent num den
    pack negative (nearestEven (num * Nat.pow 2 (-e).toNat) (den * Nat.pow 2 e.toNat)) e

/-- The quotient of two integers, rounded once. -/
def ofQuotient (num : Int) (den : Nat) : Binary64 := ofRatio (num < 0) num.natAbs den

/-- An integer as a number: `none` if it rounds past the largest finite number. -/
def ofInt? (n : Int) : Option Binary64 :=
  match ofRatio (n < 0) n.natAbs 1 with
  | .finite s m e => some (.finite s m e)
  | _ => none

/-! ## Values -/

/-- `significand * 2 ^ exponent` as a rational. -/
def magnitude (significand : Nat) (exponent : Int) : Rat :=
  (significand * Nat.pow 2 exponent.toNat : Nat) / ((Nat.pow 2 (-exponent).toNat : Nat) : Rat)

/-- The exact value of a finite number. -/
def toRat? : Binary64 → Option Rat
  | .finite s m e => some (if s then -magnitude m e else magnitude m e)
  | _ => none

/-- Whether the number is neither infinite nor undefined. -/
def isFinite : Binary64 → Bool
  | .finite .. => true
  | _ => false

/-- Whether the number is a zero of either sign. -/
def isZero : Binary64 → Bool
  | .finite _ 0 _ => true
  | _ => false

/-! ## Arithmetic -/

/-- Sum, rounded once. Opposite values give the positive zero, and two zeros keep a common sign. -/
def add : Binary64 → Binary64 → Binary64
  | .nan, _ | _, .nan => .nan
  | .infinite s, .infinite t => if s = t then .infinite s else .nan
  | .infinite s, _ | _, .infinite s => .infinite s
  | .finite s m e, .finite t n f =>
    if m = 0 ∧ n = 0 then zero (s && t)
    else
      let low := min e f
      let a : Int := m * Nat.pow 2 (e - low).toNat
      let b : Int := n * Nat.pow 2 (f - low).toNat
      let total := (if s then -a else a) + (if t then -b else b)
      ofRatio (total < 0) (total.natAbs * Nat.pow 2 low.toNat) (Nat.pow 2 (-low).toNat)

/-- Product, rounded once. -/
def mul : Binary64 → Binary64 → Binary64
  | .nan, _ | _, .nan => .nan
  | .infinite s, .infinite t => .infinite (s != t)
  | .infinite s, .finite t n _ | .finite t n _, .infinite s =>
    if n = 0 then .nan else .infinite (s != t)
  | .finite s m e, .finite t n f =>
    ofRatio (s != t) (m * n * Nat.pow 2 (e + f).toNat) (Nat.pow 2 (-(e + f)).toNat)

/-- Quotient by a positive integer, rounded once. -/
def divNat : Binary64 → Nat → Binary64
  | .nan, _ => .nan
  | .infinite s, _ => .infinite s
  | .finite s m e, n => ofRatio s (m * Nat.pow 2 e.toNat) (n * Nat.pow 2 (-e).toNat)

/-- Rounds to `places` decimal places: the exact value goes to the nearest multiple of
`10 ^ -places`, a tie to the even one, and that multiple to the nearest number. -/
def roundPlaces (places : Nat) : Binary64 → Binary64
  | .finite s m e =>
    ofRatio s (nearestEven (m * Nat.pow 2 e.toNat * Nat.pow 10 places) (Nat.pow 2 (-e).toNat))
      (Nat.pow 10 places)
  | x => x

end Binary64

/-! ## Order across integers and floating point -/

/-- A place on the number line with both ends: what integers and floating point numbers are compared
by. -/
inductive Extended where
  | below
  | at (value : Rat)
  | above
  deriving DecidableEq, Repr

namespace Extended

/-- At most. -/
def le : Extended → Extended → Bool
  | .below, _ | _, .above => true
  | .at a, .at b => decide (a ≤ b)
  | _, _ => false

/-- Less. -/
def lt (a b : Extended) : Bool := !(le b a)

end Extended

namespace Binary64

/-- The place of a number; an undefined number has none. -/
def place? : Binary64 → Option Extended
  | .finite s m e => some (.at (if s then -magnitude m e else magnitude m e))
  | .infinite true => some .below
  | .infinite false => some .above
  | .nan => none

/-- Compares two places, where one that is missing compares false. -/
def compared (test : Extended → Extended → Bool) (a b : Option Extended) : Bool :=
  match a, b with
  | some x, some y => test x y
  | _, _ => false

/-- At most; false if either number is undefined. -/
def le (a b : Binary64) : Bool := compared Extended.le a.place? b.place?

/-- Less; false if either number is undefined. -/
def lt (a b : Binary64) : Bool := compared Extended.lt a.place? b.place?

/-- Whether the number is below zero; the negative zero is not. -/
def isNegative (a : Binary64) : Bool := a.lt (zero false)

/-- Whether the number is above zero. -/
def isPositive (a : Binary64) : Bool := (zero false).lt a

end Binary64

end Stageflow
