import Stageflow.Json.Display
import Stageflow.Text.Template.Scan

/-!
# Layout of values in templates

The specification of a field says how a value is laid out: fill and alignment, sign, width, grouping
of digits, precision, and a code. `Layout.parse` reads one, `layOut` applies it to a value.
-/

namespace Stageflow.Template

/-- The parts of a specification. -/
structure Layout where
  fill : Char
  align : Char
  sign : Option Char
  noNegativeZero : Bool
  alternate : Bool
  width : Option Nat
  grouping : Option Char
  precision : Option Nat
  code : Char
  deriving DecidableEq, Repr

namespace Layout

/-- Whether a character aligns. -/
def isAlign (c : Char) : Bool := c = '<' || c = '>' || c = '=' || c = '^'

/-- The fill and the alignment in front, if there are any. -/
def takeAlign : List Char → Option Char × Option Char × List Char
  | f :: a :: rest =>
    if isAlign a then (some f, some a, rest)
    else if isAlign f then (none, some f, a :: rest)
    else (none, none, f :: a :: rest)
  | [a] => if isAlign a then (none, some a, []) else (none, none, [a])
  | [] => (none, none, [])

/-- A flag in front. -/
def takeFlag (flag : Char) : List Char → Bool × List Char
  | c :: rest => if c = flag then (true, rest) else (false, c :: rest)
  | [] => (false, [])

/-- The sign in front, if there is one. -/
def takeSign : List Char → Option Char × List Char
  | c :: rest => if c = '+' || c = '-' || c = ' ' then (some c, rest) else (none, c :: rest)
  | [] => (none, [])

/-- The digits in front. -/
def takeNumber (cs : List Char) : Except Fault (Option Nat × List Char) := do
  return (← index? (cs.takeWhile Text.isDecimal), cs.dropWhile Text.isDecimal)

/-- The grouping mark in front; only one is allowed. -/
def takeGrouping (cs : List Char) : Except Fault (Option Char × List Char) :=
  let (comma, afterComma) := takeFlag ',' cs
  let (underscore, rest) := takeFlag '_' afterComma
  if underscore && (comma || rest.head? = some ',') then .error .groupingTwice
  else .ok (if comma then some ',' else if underscore then some '_' else none, rest)

/-- The precision in front, if there is a point. -/
def takePrecision (cs : List Char) : Except Fault (Option Nat × List Char) := do
  match takeFlag '.' cs with
  | (false, rest) => return (none, rest)
  | (true, rest) =>
    match ← takeNumber rest with
    | (none, _) => throw .precisionMissing
    | found => return found

/-- Admits a grouping mark with a code. -/
def checkGrouping (grouping : Option Char) (code : Option Char) (standard : Char) :
    Except Fault Unit :=
  match grouping with
  | none => .ok ()
  | some mark =>
    match code with
    | none => if standard = 's' then .error (.groupingCode mark 's') else .ok ()
    | some c =>
      if "deEfFgG%".toList.contains c || (mark = '_' && "boxX".toList.contains c) then .ok ()
      else .error (.groupingCode mark c)

/-- Reads a specification for a kind of value, with the code and the alignment that stand where none
is given. -/
def parse (kind : String) (code align : Char) (spec : List Char) : Except Fault Layout := do
  let (fill, ownAlign, rest) := takeAlign spec
  let (sign, rest) := takeSign rest
  let (noNegativeZero, rest) := takeFlag 'z' rest
  let (alternate, rest) := takeFlag '#' rest
  let (zero, rest) := if fill.isSome then (false, rest) else takeFlag '0' rest
  let (width, rest) ← takeNumber rest
  let (grouping, rest) ← takeGrouping rest
  let (precision, rest) ← takePrecision rest
  if 1 < rest.length then throw (.specUnread (String.ofList spec) kind)
  checkGrouping grouping rest.head? code
  return {
    fill := fill.getD (if zero then '0' else ' ')
    align := ownAlign.getD (if zero && align = '>' then '=' else align)
    sign, noNegativeZero, alternate, width, grouping, precision
    code := rest.head?.getD code }

/-- No text is filled up to a greater width. -/
def greatestWidth : Nat := Nat.pow 2 31 - 1

/-- Admits a width that there is room for. -/
def checkRoom (layout : Layout) : Except Fault Unit :=
  if greatestWidth < layout.width.getD 0 then .error .tooWide else .ok ()

end Layout

/-- Fills a text up to a width; the alignment says on which side, and `=` fills behind a lead. -/
def fillUp (layout : Layout) (lead body : List Char) : List Char :=
  let missing := (layout.width.getD 0) - (lead.length + body.length)
  let pad (n : Nat) : List Char := List.replicate n layout.fill
  if layout.align = '<' then lead ++ body ++ pad missing
  else if layout.align = '^' then
    pad (missing / 2) ++ lead ++ body ++ pad (missing - missing / 2)
  else if layout.align = '=' then lead ++ pad missing ++ body
  else pad missing ++ lead ++ body

/-- Lays out a text. -/
def layOutText (spec : List Char) (s : String) : Except Fault String := do
  if spec.isEmpty then return s
  let layout ← Layout.parse "str" 's' '<' spec
  if layout.code ≠ 's' then throw (.codeUnknown layout.code "str")
  if layout.sign = some ' ' then throw .spaceOnText
  if layout.sign.isSome then throw .signOnText
  if layout.noNegativeZero then throw .zeroOnText
  if layout.alternate then throw .alternateOnText
  if layout.align = '=' then throw .alignOnText
  layout.checkRoom
  let shown := match layout.precision with
    | some n => s.toList.take n
    | none => s.toList
  return String.ofList (fillUp layout [] shown)

/-- Digits in groups from the right, filled up with zeros to a least width. The digits come last one
first, and so does the answer. The fuel bounds the number of groups. -/
def group (size : Nat) (mark : Char) : Nat → List Char → Nat → List Char
  | 0, _, _ => []
  | fuel + 1, digits, width =>
    let taken := min size (max (max digits.length width) 1)
    let here := digits.take taken
    let shown := here ++ List.replicate (taken - here.length) '0'
    let rest := digits.drop taken
    if rest.isEmpty && width ≤ taken then shown
    else shown ++ mark :: group size mark fuel rest (width - taken - 1)

/-- Digits with the grouping of a layout; `used` is the room that sign and fraction take. -/
def grouped (layout : Layout) (used : Nat) (digits : List Char) : List Char :=
  match layout.grouping, digits with
  | none, _ | _, [] => digits
  | some mark, _ =>
    let size := if "boxX".toList.contains layout.code then 4 else 3
    let width :=
      if layout.fill = '0' && layout.align = '=' then layout.width.getD 0 - used else 0
    (group size mark (digits.length + width + 1) digits.reverse width).reverse

/-- The sign that a layout shows. -/
def signText (layout : Layout) (negative : Bool) : List Char :=
  if negative then ['-']
  else match layout.sign with
    | some '+' => ['+']
    | some ' ' => [' ']
    | _ => []

/-- Lays out a number from its sign, a mark of its base, its digits and its fraction. -/
def assemble (layout : Layout) (negative : Bool) (base digits fraction : List Char) : String :=
  let lead := signText layout negative ++ base
  let body := grouped layout (lead.length + fraction.length) digits ++ fraction
  String.ofList (fillUp layout lead body)

/-- The digits of an integer in the base of a code, with the mark of the base. -/
def baseDigits (code : Char) (n : Nat) : List Char × List Char :=
  match code with
  | 'b' => ("0b".toList, Nat.toDigits 2 n)
  | 'o' => ("0o".toList, Nat.toDigits 8 n)
  | 'x' => ("0x".toList, Nat.toDigits 16 n)
  | 'X' => ("0X".toList, (Nat.toDigits 16 n).map Char.toUpper)
  | _ => ([], Nat.toDigits 10 n)

/-- The text of a number in a code for fractions, without its sign. The code `r` stands for none. -/
def fractionText (layout : Layout) (code : Char) (x : Binary64) : List Char :=
  let places := layout.precision.getD 6
  let positive := x.magnitudeOf
  let text := (match code.toLower with
    | 'e' => positive.scientificPlaces places
    | 'f' => positive.fixedText places
    | '%' => (positive.mul (Binary64.ofQuotient 100 1)).fixedText places ++ "%"
    | 'r' =>
      match layout.precision with
      | none => positive.toText
      | some count => positive.generalText count layout.alternate true
    | _ => positive.generalText places layout.alternate false).toList
  let shown := if layout.alternate then Binary64.withPoint text else text
  if code.isUpper then shown.map Char.toUpper else shown

/-- Lays out a number in a code for fractions. -/
def layOutFraction (layout : Layout) (code : Char) (x : Binary64) : Except Fault String := do
  if Layout.greatestWidth < layout.precision.getD 0 then throw .precisionTooBig
  layout.checkRoom
  let text := fractionText layout code x
  let digits := text.takeWhile Char.isDigit
  let rest := text.dropWhile Char.isDigit
  let zero := (text.takeWhile (· ≠ 'e')).all fun c => !('1' ≤ c && c ≤ '9')
  let minus := x.carriesMinus && !(layout.noNegativeZero && zero && x.isFinite)
  return assemble layout minus [] digits rest

/-- Lays out an integer. -/
def layOutInteger (kind : String) (spec : List Char) (n : Int) : Except Fault String := do
  let layout ← Layout.parse kind 'd' '>' spec
  let code := layout.code
  if "eEfFgG%".toList.contains code then
    match Binary64.ofInt? n with
    | some x => layOutFraction layout code x
    | none => throw .tooLarge
  else if "bcdoxXn".toList.contains code then
    if layout.precision.isSome then throw .precisionOnInteger
    if layout.noNegativeZero then throw .zeroOnInteger
    if code = 'c' then
      if layout.sign.isSome then throw .signOnCharacter
      if layout.alternate then throw .alternateOnCharacter
      if n < 0 || 0x10ffff < n then throw .characterRange
      layout.checkRoom
      return String.ofList (fillUp layout [] [Char.ofNat n.toNat])
    else
      if "dn".toList.contains code && !(Json.int n).isWritable then throw .unwritable
      layout.checkRoom
      let (mark, digits) := baseDigits code n.natAbs
      return assemble layout (n < 0) (if layout.alternate then mark else []) digits []
  else throw (.codeUnknown code kind)

/-- Lays out a floating point number; without a code and a precision it keeps its shortest digits.
-/
def layOutReal (spec : List Char) (x : Binary64) : Except Fault String := do
  let layout ← Layout.parse "float" '\x00' '>' spec
  let code := layout.code
  if code = '\x00' then layOutFraction layout 'r' x
  else if "eEfFgG%n".toList.contains code then
    layOutFraction layout (if code = 'n' then 'g' else code) x
  else throw (.codeUnknown code "float")

/-- A value as it is, if it can be written. -/
def written (value : Json) (text : String) : Except Fault String :=
  if value.isWritable then .ok text else .error .unwritable

/-- Lays out a value by a specification. An empty one shows the value as it is. -/
def layOut (spec : List Char) (value : Json) : Except Fault String :=
  match value with
  | .str s => layOutText spec s
  | .int n => if spec.isEmpty then written value value.display else layOutInteger "int" spec n
  | .bool b =>
    if spec.isEmpty then .ok value.display else layOutInteger "bool" spec (if b then 1 else 0)
  | .real x => if spec.isEmpty then .ok value.display else layOutReal spec x
  | _ =>
    if spec.isEmpty then written value value.display else .error (.specRefused value.kindName)

end Stageflow.Template
