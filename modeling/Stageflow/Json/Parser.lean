import Stageflow.Json.Display

/-!
# Reading JSON text

`Json.read` reads one value with nothing but blanks around it. Beside the standard grammar the
numbers `NaN`, `Infinity` and `-Infinity` are read; a number with a point or an exponent is floating
point, any other an integer. An integer has a limited number of digits, and reading ends where there
are more. A key that occurs twice holds its last value.
-/

namespace Stageflow.Json

/-- Why a text is not read: it does not hold one value, or it holds an integer of too many digits
before anything else is wrong. -/
inductive Unread where
  | malformed
  | tooLong (digits : Nat)
  deriving DecidableEq, Repr

/-- What was made out, if anything was. -/
def found {α : Type} : Option α → Except Unread α
  | some a => .ok a
  | none => .error .malformed

/-- The blanks that may stand between tokens. -/
def isSpace (c : Char) : Bool := c = ' ' || c = '\t' || c = '\n' || c = '\r'

/-- The text behind its leading blanks. -/
def skipSpace (cs : List Char) : List Char := cs.dropWhile isSpace

/-- The rest behind a literal that the text begins with. -/
def afterLiteral? : List Char → List Char → Option (List Char)
  | [], cs => some cs
  | x :: xs, c :: cs => if x = c then afterLiteral? xs cs else none
  | _ :: _, [] => none

/-- The value of a hexadecimal digit. -/
def hexValue? (c : Char) : Option Nat :=
  if c.isDigit then some (c.toNat - '0'.toNat)
  else if 'a' ≤ c ∧ c ≤ 'f' then some (c.toNat - 'a'.toNat + 10)
  else if 'A' ≤ c ∧ c ≤ 'F' then some (c.toNat - 'A'.toNat + 10)
  else none

/-- Four hexadecimal digits. -/
def unit? : List Char → Option (Nat × List Char)
  | a :: b :: c :: d :: rest => do
    let a ← hexValue? a
    let b ← hexValue? b
    let c ← hexValue? c
    let d ← hexValue? d
    return (((a * 16 + b) * 16 + c) * 16 + d, rest)
  | _ => none

/-- The character of an escape by number: two units of a pair give one character, and a unit that
stands alone in a pair's range gives the replacement character. -/
def unicodeEscape? (cs : List Char) : Option (Char × List Char) := do
  let (high, rest) ← unit? cs
  if 0xd800 ≤ high ∧ high < 0xdc00 then
    match rest with
    | '\\' :: 'u' :: more =>
      let (low, behind) ← unit? more
      if 0xdc00 ≤ low ∧ low < 0xe000 then
        return (Char.ofNat (0x10000 + (high - 0xd800) * 0x400 + (low - 0xdc00)), behind)
      else return (Char.ofNat 0xfffd, rest)
    | _ => return (Char.ofNat 0xfffd, rest)
  else if 0xdc00 ≤ high ∧ high < 0xe000 then return (Char.ofNat 0xfffd, rest)
  else return (Char.ofNat high, rest)

/-- The character that a single-letter escape stands for. -/
def letterEscape? : Char → Option Char
  | '"' => some '"'
  | '\\' => some '\\'
  | '/' => some '/'
  | 'b' => some '\x08'
  | 'f' => some '\x0c'
  | 'n' => some '\n'
  | 'r' => some '\r'
  | 't' => some '\t'
  | _ => none

/-- The rest of a string behind its opening quote; `done` holds what was read, last first. Control
characters are refused. The fuel is the length of the text. -/
def stringBody? (fuel : Nat) (done : List Char) (cs : List Char) : Option (String × List Char) :=
  match fuel with
  | 0 => none
  | fuel + 1 =>
    match cs with
    | '"' :: rest => some (String.ofList done.reverse, rest)
    | '\\' :: 'u' :: rest =>
      match unicodeEscape? rest with
      | some (c, rest) => stringBody? fuel (c :: done) rest
      | none => none
    | '\\' :: c :: rest =>
      match letterEscape? c with
      | some c => stringBody? fuel (c :: done) rest
      | none => none
    | c :: rest => if c.val < 0x20 || c = '\\' then none else stringBody? fuel (c :: done) rest
    | [] => none

/-- The leading ASCII digits and the rest. -/
def digitRun (cs : List Char) : List Char × List Char :=
  (cs.takeWhile Char.isDigit, cs.dropWhile Char.isDigit)

/-- The number a run of ASCII digits stands for. -/
def natValue (cs : List Char) : Nat := cs.foldl (fun n c => 10 * n + (c.toNat - '0'.toNat)) 0

/-- The digits behind a point, if the text begins with a point and a digit. -/
def fraction? : List Char → Option (List Char × List Char)
  | '.' :: rest =>
    match digitRun rest with
    | ([], _) => none
    | run => some run
  | _ => none

/-- The exponent that the text begins with. -/
def exponent? : List Char → Option (Int × List Char)
  | e :: rest =>
    if e = 'e' || e = 'E' then
      let (negative, body) :=
        match rest with
        | '-' :: more => (true, more)
        | '+' :: more => (false, more)
        | more => (false, more)
      match digitRun body with
      | ([], _) => none
      | (digits, behind) =>
        let n : Int := natValue digits
        some (if negative then -n else n, behind)
    else none
  | [] => none

/-- A number without its sign: an integer, or floating point if it has a fraction or an exponent. -/
def readNumber (negative : Bool) (cs : List Char) : Except Unread (Json × List Char) :=
  let (whole, rest) :=
    match cs with
    | '0' :: rest => (['0'], rest)
    | cs => digitRun cs
  if whole.isEmpty then .error .malformed
  else
    let (places, rest', pointed) :=
      match fraction? rest with
      | some (digits, behind) => (digits, behind, true)
      | none => ([], rest, false)
    let (power, rest'', scaled) :=
      match exponent? rest' with
      | some (n, behind) => (n, behind, true)
      | none => ((0 : Int), rest', false)
    if pointed || scaled then
      let value := Binary64.ofDecimal negative (natValue (whole ++ places)) (power - places.length)
      .ok (.real value, rest'')
    else if mostDigits < whole.length then .error (.tooLong whole.length)
    else
      let n : Int := natValue whole
      .ok (.int (if negative then -n else n), rest)

/-- The literals. -/
def literals : List (List Char × Json) := [
  ("null".toList, .null), ("true".toList, .bool true), ("false".toList, .bool false),
  ("NaN".toList, .real .nan), ("Infinity".toList, .real (.infinite false)),
  ("-Infinity".toList, .real (.infinite true))]

/-- A literal that the text begins with. -/
def literal? (cs : List Char) : Option (Json × List Char) :=
  literals.findSome? fun p => (afterLiteral? p.1 cs).map fun rest => (p.2, rest)

mutual

/-- One value, behind any blanks. The fuel bounds the nesting and the number of elements together;
twice the length of the text is enough. -/
def readValue (fuel : Nat) (cs : List Char) : Except Unread (Json × List Char) :=
  match fuel with
  | 0 => .error .malformed
  | fuel + 1 =>
    match skipSpace cs with
    | '"' :: rest => (found (stringBody? (rest.length + 1) [] rest)).map fun p => (.str p.1, p.2)
    | '[' :: rest =>
      match skipSpace rest with
      | ']' :: behind => .ok (.arr [], behind)
      | body => (readElements fuel [] body).map fun p => (.arr p.1, p.2)
    | '\x7b' :: rest =>
      match skipSpace rest with
      | '\x7d' :: behind => .ok (.obj [], behind)
      | body => (readMembers fuel [] body).map fun p => (.obj (Table.ofPairs p.1), p.2)
    | rest =>
      match literal? rest with
      | some made => .ok made
      | none =>
        match rest with
        | '-' :: body => readNumber true body
        | body => readNumber false body

/-- The elements of an array up to its closing bracket. -/
def readElements (fuel : Nat) (done : List Json) (cs : List Char) :
    Except Unread (List Json × List Char) :=
  match fuel with
  | 0 => .error .malformed
  | fuel + 1 =>
    match readValue fuel cs with
    | .error e => .error e
    | .ok (v, rest) =>
      match skipSpace rest with
      | ',' :: more => readElements fuel (v :: done) more
      | ']' :: behind => .ok ((v :: done).reverse, behind)
      | _ => .error .malformed

/-- The members of an object up to its closing brace. -/
def readMembers (fuel : Nat) (done : List (String × Json)) (cs : List Char) :
    Except Unread (List (String × Json) × List Char) :=
  match fuel with
  | 0 => .error .malformed
  | fuel + 1 =>
    match skipSpace cs with
    | '"' :: rest =>
      match stringBody? (rest.length + 1) [] rest with
      | none => .error .malformed
      | some (key, rest) =>
        match skipSpace rest with
        | ':' :: rest =>
          match readValue fuel rest with
          | .error e => .error e
          | .ok (v, rest) =>
            match skipSpace rest with
            | ',' :: more => readMembers fuel ((key, v) :: done) more
            | '\x7d' :: behind => .ok (((key, v) :: done).reverse, behind)
            | _ => .error .malformed
        | _ => .error .malformed
    | _ => .error .malformed

end

/-- The value that a text holds, if it holds exactly one. -/
def read (text : String) : Except Unread Json :=
  let cs := text.toList
  match readValue (2 * cs.length + 2) cs with
  | .ok (v, rest) => if (skipSpace rest).isEmpty then .ok v else .error .malformed
  | .error e => .error e

end Stageflow.Json
