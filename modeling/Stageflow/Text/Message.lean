import Stageflow.Json.Display

/-!
# Messages with places for arguments

A message holds places such as `%s` or `%5.2f`, which its arguments fill in order, or by name if the
only argument is an object; a percent sign is written twice. A message whose arguments do not fit
its places comes to nothing.
-/

namespace Stageflow.Message

/-- A place for an argument: how wide it is, how it is filled up, and the code of its conversion. -/
structure Place where
  name : Option String := none
  left : Bool := false
  plus : Bool := false
  blank : Bool := false
  alternate : Bool := false
  zero : Bool := false
  width : Nat := 0
  precision : Option Nat := none
  code : Char := 's'
  deriving DecidableEq, Repr

/-- The arguments not used so far, and the fields of the only argument if it is an object. -/
structure Arguments where
  rest : List Json
  named : Option Fields
  deriving Repr

namespace Arguments

/-- The arguments of a message. -/
def ofList (values : List Json) : Arguments :=
  match values with
  | [.obj (f :: fields)] => ⟨values, some (f :: fields)⟩
  | _ => ⟨values, none⟩

/-- The next argument. -/
def next? (args : Arguments) : Option (Json × Arguments) :=
  match args.rest with
  | value :: rest => some (value, { args with rest })
  | [] => none

/-- Whether no argument was left out. -/
def areUsed (args : Arguments) : Bool := args.rest.isEmpty || args.named.isSome

end Arguments

/-! ## Reading a place -/

/-- The name in parentheses, which may hold further ones; `depth` counts those that are open. -/
def nameFrom? (depth : Nat) (done : List Char) : List Char → Option (String × List Char)
  | [] => none
  | c :: cs =>
    if c = ')' then
      if depth = 0 then some (String.ofList done.reverse, cs)
      else nameFrom? (depth - 1) (c :: done) cs
    else nameFrom? (if c = '(' then depth + 1 else depth) (c :: done) cs

/-- The flags in front. -/
def flags (place : Place) : List Char → Place × List Char
  | [] => (place, [])
  | c :: cs =>
    match c with
    | '-' => flags { place with left := true } cs
    | '+' => flags { place with plus := true } cs
    | ' ' => flags { place with blank := true } cs
    | '#' => flags { place with alternate := true } cs
    | '0' => flags { place with zero := true } cs
    | c => (place, c :: cs)

/-- No width and no precision is greater. -/
def greatestCount : Nat := Nat.pow 2 31 - 1

/-- A count that is not too great. -/
def bounded (n : Int) : Option Int := if n.natAbs ≤ greatestCount then some n else none

/-- A count in front: digits, or a star for the next argument. -/
def count? (args : Arguments) (cs : List Char) : Option (Int × List Char × Arguments) :=
  match cs with
  | '*' :: rest =>
    match args.next? with
    | some (.int n, args) => (bounded n).map (·, rest, args)
    | some (.bool b, args) => some (if b then 1 else 0, rest, args)
    | _ => none
  | cs =>
    let digits := cs.takeWhile Char.isDigit
    let n := digits.foldl (fun n c => 10 * n + (c.toNat - '0'.toNat)) 0
    (bounded n).map (·, cs.dropWhile Char.isDigit, args)

/-- The place behind its percent sign. -/
def place? (args : Arguments) (cs : List Char) : Option (Place × List Char × Arguments) := do
  let (name, cs) ← match cs with
    | '(' :: rest => (nameFrom? 0 [] rest).map fun p => (some p.1, p.2)
    | cs => some (none, cs)
  let (place, cs) := flags { name } cs
  let (width, cs, args) ← count? args cs
  let place := { place with left := place.left || width < 0, width := width.natAbs }
  let (precision, cs, args) ← match cs with
    | '.' :: rest => (count? args rest).map fun p => (some p.1.toNat, p.2)
    | cs => some (none, cs, args)
  let cs := match cs with
    | c :: rest => if c = 'h' || c = 'l' || c = 'L' then rest else cs
    | [] => []
  match cs with
  | code :: rest => return ({ place with precision, code }, rest, args)
  | [] => none

/-! ## Filling a place -/

/-- Fills a text up to the width of its place; zeros go behind the lead of a number. -/
def fillUp (place : Place) (number : Bool) (lead body : String) : String :=
  let missing := place.width - (lead.length + body.length)
  let pad (c : Char) : String := String.ofList (List.replicate missing c)
  if place.left then lead ++ body ++ pad ' '
  else if number && place.zero then lead ++ pad '0' ++ body
  else pad ' ' ++ lead ++ body

/-- The sign of a number in its place. -/
def sign (place : Place) (negative : Bool) : String :=
  if negative then "-" else if place.plus then "+" else if place.blank then " " else ""

/-- A text in its place, cut to the precision. -/
def textIn (place : Place) (text : String) : String :=
  fillUp place false "" (match place.precision with
    | some n => String.ofList (text.toList.take n)
    | none => text)

/-- An integer in its place, with the digits of a base behind a mark. -/
def integerIn (place : Place) (mark : String) (digits : Nat → String) (n : Int) : String :=
  let text := digits n.natAbs
  let zeros := String.ofList (List.replicate (place.precision.getD 0 - text.length) '0')
  fillUp place true (sign place (n < 0) ++ (if place.alternate then mark else "")) (zeros ++ text)

/-- A floating point number in its place. -/
def realIn (place : Place) (x : Binary64) : String :=
  let places := place.precision.getD 6
  let text := (match place.code.toLower with
    | 'e' => x.magnitudeOf.scientificPlaces places
    | 'f' => x.magnitudeOf.fixedText places
    | _ => x.magnitudeOf.generalText places place.alternate false).toList
  let shown := if place.alternate then Binary64.withPoint text else text
  fillUp place true (sign place x.carriesMinus)
    (String.ofList (if place.code.isUpper then shown.map Char.toUpper else shown))

/-- A value as an integer; what stands behind the point of a number is cut off. -/
def integer? : Json → Option Int
  | .int n => some n
  | .bool b => some (if b then 1 else 0)
  | .real x => x.toRat?.map fun r => if r < 0 then -((-r).floor) else r.floor
  | _ => none

/-- A value as an integer, if it is one. -/
def whole? : Json → Option Int
  | .real _ => none
  | value => integer? value

/-- A value as a floating point number. -/
def real? : Json → Option Binary64
  | .real x => some x
  | value => (whole? value).bind Binary64.ofInt?

/-- A text with everything outside ASCII escaped. -/
def asciiText (text : String) : String :=
  String.join (text.toList.map fun c =>
    if c.val < 0x80 then c.toString else Text.codeEscape c.toNat)

/-- Digits in a base. -/
def digitsIn (base n : Nat) : String := String.ofList (Nat.toDigits base n)

/-- The text that a value is written as, if it can be written. -/
def written? (value : Json) (text : String) : Option String :=
  if value.isWritable then some text else none

/-- The value in its place. -/
def fillPlace? (place : Place) (value : Json) : Option String :=
  match place.code with
  | 's' => (written? value value.display).map (textIn place)
  | 'r' => (written? value value.quoted).map (textIn place)
  | 'a' => (written? value (asciiText value.quoted)).map (textIn place)
  | 'd' | 'i' | 'u' => do
    let n ← integer? value
    written? (.int n) (integerIn place "" (digitsIn 10) n)
  | 'o' => (whole? value).map (integerIn place "0o" (digitsIn 8))
  | 'x' => (whole? value).map (integerIn place "0x" (digitsIn 16))
  | 'X' => (whole? value).map (integerIn place "0X" fun n =>
      String.ofList ((Nat.toDigits 16 n).map Char.toUpper))
  | 'e' | 'E' | 'f' | 'F' | 'g' | 'G' => (real? value).map (realIn place)
  | 'c' =>
    match value with
    | .str s => if s.length = 1 then some (fillUp place false "" s) else none
    | value => do
      let n ← whole? value
      if 0 ≤ n && n ≤ 0x10ffff then some (fillUp place false "" (Char.ofNat n.toNat).toString)
      else none
  | _ => none

/-- The argument for a place: by name, or the next one. -/
def argument? (place : Place) (args : Arguments) : Option (Json × Arguments) :=
  match place.name with
  | some name => do return (← (← args.named).get? name, args)
  | none => args.next?

/-- The message from a character on; `done` is what comes before. The fuel is the length of the
text. -/
def fillFrom? (fuel : Nat) (done : String) (args : Arguments) (cs : List Char) : Option String :=
  match fuel with
  | 0 => if args.areUsed then some done else none
  | fuel + 1 =>
    match cs with
    | [] => if args.areUsed then some done else none
    | '%' :: '%' :: rest => fillFrom? fuel (done.push '%') args rest
    | '%' :: rest =>
      match place? args rest with
      | none => none
      | some (place, rest, args) =>
        match argument? place args with
        | none => none
        | some (value, args) =>
          match fillPlace? place value with
          | none => none
          | some text => fillFrom? fuel (done ++ text) args rest
    | c :: rest => fillFrom? fuel (done.push c) args rest

/-- A message with its arguments in place. Without arguments it stays as it is. -/
def fill? (text : String) (args : List Json) : Option String :=
  if args.isEmpty then some text
  else fillFrom? (text.length + 1) "" (Arguments.ofList args) text.toList

end Stageflow.Message
