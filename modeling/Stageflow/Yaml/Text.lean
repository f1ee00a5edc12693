import Stageflow.Json.Parser
import Stageflow.Yaml.Cursor
import Stageflow.Yaml.Scalar

/-!
# Texts in YAML

The three ways to write a scalar: plain, in single quotes, in double quotes. Inside each a line
break counts as a blank, and each further one as itself.
-/

namespace Stageflow.Yaml

/-- A scalar that was read: its value, whether it ends on the line it begins on, and what follows.
-/
structure Lexeme where
  value : Json
  single : Bool
  next : Cursor

/-! ## Line breaks inside texts -/

/-- Goes over blanks and line breaks; the answer counts the line breaks. -/
def breaks : List Char → Nat × List Char
  | [] => (0, [])
  | c :: cs =>
    if c = '\n' then
      let (n, rest) := breaks cs
      (n + 1, rest)
    else if c = ' ' || c = '\t' then breaks cs
    else (0, c :: cs)

/-- What `n` line breaks amount to. -/
def folded (n : Nat) : List Char :=
  match n with
  | 0 => []
  | 1 => [' ']
  | n + 2 => List.replicate (n + 1) '\n'

/-! ## Plain scalars -/

/-- The characters that a plain scalar may not begin with. -/
def indicators : List Char := "-?:,[]\x7b\x7d#&*!|>'\"%@\x60".toList

/-- The characters that end a plain scalar inside brackets. -/
def brackets : List Char := ",[]\x7b\x7d".toList

/-- Whether a plain scalar may begin here. -/
def plainStarts (flow : Bool) : List Char → Bool
  | [] => false
  | c :: cs =>
    (!isGap c && !indicators.contains c) ||
      (!atGap cs && (c = '-' || (!flow && (c = '?' || c = ':'))))

/-- Whether a colon here sets a value apart from its key. -/
def colonEnds (flow : Bool) (behind : List Char) : Bool :=
  atGap behind || (flow && (behind.head?.map brackets.contains).getD false)

/-- The characters of a plain scalar up to the next blank, and the rest. -/
def plainWord (flow : Bool) : List Char → List Char × List Char
  | [] => ([], [])
  | c :: cs =>
    if isGap c || (c = ':' && colonEnds flow cs) ||
        (flow && (c = '?' || brackets.contains c)) then ([], c :: cs)
    else
      let (word, rest) := plainWord flow cs
      (c :: word, rest)

/-- What blanks and line breaks between two words amount to. -/
def filler (gap : List Char) : List Char :=
  if gap.contains '\n' then folded (gap.count '\n') else gap

/-- Whether a plain scalar goes on behind a gap. In a block a line that begins left of `least` is no
part of it, nor is the boundary of a document or a comment. -/
def goesOn (flow : Bool) (least : Nat) (gap : List Char) (there : Cursor) : Bool :=
  !gap.isEmpty && there.rest.head? ≠ some '#' && !(plainWord flow there.rest).1.isEmpty &&
    (!gap.contains '\n' ||
      ((flow || least ≤ there.column) && !(there.column = 0 && atBoundary there.rest)))

/-- The words of a plain scalar with what stands between them; whether they are on one line; and
what follows. The fuel is the length of the text. -/
def plainFrom (fuel : Nat) (flow : Bool) (least : Nat) (done : List Char) (single : Bool)
    (cur : Cursor) : List Char × Bool × Cursor :=
  match fuel with
  | 0 => (done, single, cur)
  | fuel + 1 =>
    let word := (plainWord flow cur.rest).1
    let here := cur.past word
    let gap := here.rest.takeWhile fun c => c = ' ' || c = '\n'
    let there := here.past gap
    if goesOn flow least gap there then
      plainFrom fuel flow least (done ++ word ++ filler gap) (single && !gap.contains '\n') there
    else (done ++ word, single, here)

/-- A plain scalar. -/
def plain? (flow : Bool) (least : Nat) (cur : Cursor) : Option Lexeme :=
  if plainStarts flow cur.rest then
    let (text, single, next) := plainFrom cur.rest.length flow least [] true cur
    some ⟨Scalar.resolve (String.ofList text), single, next⟩
  else none

/-! ## Quoted scalars -/

/-- The characters that a letter behind a backslash stands for. -/
def letterEscape? (c : Char) : Option Char :=
  (List.lookup c [
    ('0', '\x00'), ('a', '\x07'), ('b', '\x08'), ('t', '\t'), ('\t', '\t'), ('n', '\n'),
    ('v', '\x0b'), ('f', '\x0c'), ('r', '\r'), ('e', '\x1b'), (' ', ' '), ('"', '"'),
    ('\\', '\\'), ('/', '/'), ('N', '\u0085'), ('_', '\u00a0'), ('L', '\u2028'),
    ('P', '\u2029')])

/-- How many hexadecimal digits follow a letter behind a backslash. -/
def escapeWidth? : Char → Option Nat
  | 'x' => some 2
  | 'u' => some 4
  | 'U' => some 8
  | _ => none

/-- The character of a number in hexadecimal. -/
def numbered? (width : Nat) (cs : List Char) : Option Char := do
  let digits ← (cs.take width).mapM Json.hexValue?
  if digits.length = width then
    let n := digits.foldl (fun n d => 16 * n + d) 0
    if n ≤ 0x10ffff then return Char.ofNat n else none
  else none

/-- The character of the escape behind a backslash and the rest. -/
def escape? : List Char → Option (Char × List Char)
  | [] => none
  | c :: cs =>
    match escapeWidth? c with
    | some width => (numbered? width cs).map fun x => (x, cs.drop width)
    | none => (letterEscape? c).map fun x => (x, cs)

/-- Blanks and line breaks inside quotes: what they amount to and the rest. -/
def quotedGap (cs : List Char) : List Char × List Char :=
  let blanks := cs.takeWhile fun c => c = ' ' || c = '\t'
  match cs.dropWhile (fun c => c = ' ' || c = '\t') with
  | '\n' :: rest =>
    let (n, rest) := breaks rest
    (folded (n + 1), rest)
  | rest => (blanks, rest)

/-- The text up to the closing single quote; `done` comes last character first. A quote is written
twice. The fuel is the length of the text. -/
def singleQuoted? (fuel : Nat) (done : List Char) (cs : List Char) :
    Option (List Char × List Char) :=
  match fuel with
  | 0 => none
  | fuel + 1 =>
    match cs with
    | '\'' :: '\'' :: rest => singleQuoted? fuel ('\'' :: done) rest
    | '\'' :: rest => some (done.reverse, rest)
    | c :: rest =>
      if isGap c then
        let (gap, rest) := quotedGap (c :: rest)
        singleQuoted? fuel (gap.reverse ++ done) rest
      else singleQuoted? fuel (c :: done) rest
    | [] => none

/-- The text up to the closing double quote; `done` comes last character first. A backslash at the
end of a line hides the line break. The fuel is the length of the text. -/
def doubleQuoted? (fuel : Nat) (done : List Char) (cs : List Char) :
    Option (List Char × List Char) :=
  match fuel with
  | 0 => none
  | fuel + 1 =>
    match cs with
    | '"' :: rest => some (done.reverse, rest)
    | '\\' :: '\n' :: rest =>
      let (n, rest) := breaks rest
      doubleQuoted? fuel (List.replicate n '\n' ++ done) rest
    | '\\' :: rest =>
      match escape? rest with
      | some (c, rest) => doubleQuoted? fuel (c :: done) rest
      | none => none
    | c :: rest =>
      if isGap c then
        let (gap, rest) := quotedGap (c :: rest)
        doubleQuoted? fuel (gap.reverse ++ done) rest
      else doubleQuoted? fuel (c :: done) rest
    | [] => none

/-- A scalar in quotes behind its opening quote. -/
def quoted? (body : List Char → Option (List Char × List Char)) (rest : List Char) (cur : Cursor) :
    Option Lexeme := do
  let (text, tail) ← body rest
  let consumed := cur.rest.take (cur.rest.length - tail.length)
  return ⟨.str (String.ofList text), !consumed.contains '\n', cur.past consumed⟩

/-! ## Any scalar -/

/-- A scalar; `least` is the least column of its further lines in a block. -/
def scalar? (flow : Bool) (least : Nat) (cur : Cursor) : Option Lexeme :=
  match cur.rest with
  | '"' :: rest => quoted? (doubleQuoted? (rest.length + 1) []) rest cur
  | '\'' :: rest => quoted? (singleQuoted? (rest.length + 1) []) rest cur
  | _ => plain? flow least cur

end Stageflow.Yaml
