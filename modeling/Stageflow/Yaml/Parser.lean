import Stageflow.Yaml.Text

/-!
# Reading YAML documents

`Yaml.parse?` reads a text that holds one document: mappings and sequences in blocks, where columns
tell what belongs together, and in brackets, over the scalars of `Yaml.Text`. Anchors, tags, block
scalars and keys that are collections are refused. A key that occurs twice holds its last value.

It stands for a library that reads all of YAML. No statement about documents depends on how a text
is read, only on the value that comes of it.
-/

namespace Stageflow.Yaml

/-! ## Collections in brackets -/

/-- The characters that follow an entry inside brackets. -/
def closers : List Char := [',', ']', '\x7d']

/-- The value of a mapping with the entries read so far, the last one first. -/
def mappingOf (done : List (String × Json)) : Json := .obj (Table.ofPairs done.reverse)

mutual

/-- A node inside brackets. The fuel bounds the nesting and the number of entries together. -/
def flow? (fuel : Nat) (cur : Cursor) : Option Lexeme :=
  match fuel with
  | 0 => none
  | fuel + 1 =>
    match cur.rest with
    | '[' :: rest => flowItems? fuel [] (cur.upTo rest).skip
    | '\x7b' :: rest => flowFields? fuel [] (cur.upTo rest).skip
    | _ => scalar? true 0 cur

/-- The entries of a sequence up to its closing bracket. -/
def flowItems? (fuel : Nat) (done : List Json) (cur : Cursor) : Option Lexeme :=
  match fuel with
  | 0 => none
  | fuel + 1 =>
    match cur.rest with
    | ']' :: rest => some ⟨.arr done.reverse, true, cur.upTo rest⟩
    | _ =>
      match flow? fuel cur with
      | none => none
      | some item =>
        match flowPair? fuel item with
        | none => none
        | some (value, next) =>
          let entry := match value with
            | some v => mappingOf [(Scalar.keyText item.value, v)]
            | none => item.value
          match next.rest with
          | ',' :: rest => flowItems? fuel (entry :: done) (next.upTo rest).skip
          | ']' :: rest => some ⟨.arr (entry :: done).reverse, true, next.upTo rest⟩
          | _ => none

/-- The entries of a mapping up to its closing brace. -/
def flowFields? (fuel : Nat) (done : List (String × Json)) (cur : Cursor) : Option Lexeme :=
  match fuel with
  | 0 => none
  | fuel + 1 =>
    match cur.rest with
    | '\x7d' :: rest => some ⟨mappingOf done, true, cur.upTo rest⟩
    | _ =>
      match flow? fuel cur with
      | none => none
      | some key =>
        match flowPair? fuel key with
        | none => none
        | some (value, next) =>
          if key.value.isKey then
            let entry := (Scalar.keyText key.value, value.getD .null)
            match next.rest with
            | ',' :: rest => flowFields? fuel (entry :: done) (next.upTo rest).skip
            | '\x7d' :: rest => some ⟨mappingOf (entry :: done), true, next.upTo rest⟩
            | _ => none
          else none

/-- The value behind the colon that may follow a key inside brackets. -/
def flowPair? (fuel : Nat) (key : Lexeme) : Option (Option Json × Cursor) :=
  match fuel with
  | 0 => none
  | fuel + 1 =>
    let cur := key.next.skip
    match cur.rest with
    | ':' :: rest =>
      if key.value.isKey && key.single then
        let cur := (cur.upTo rest).skip
        if (cur.rest.head?.map closers.contains).getD true then some (some .null, cur)
        else
          match flow? fuel cur with
          | some value => some (some value.value, value.next.skip)
          | none => none
      else none
    | _ => some (none, cur)

end

/-! ## Blocks -/

/-- The place behind the colon that follows a key on its line. -/
def behindColon? (key : Lexeme) : Option Cursor :=
  let cur := key.next.skip
  match cur.rest with
  | ':' :: rest => if !cur.fresh && atGap rest then some (cur.upTo rest) else none
  | _ => none

mutual

/-- A node outside brackets, all of whose lines begin at column `least` or right of it. `nests` says
whether a block may begin here; behind a key on the same line it may not. -/
def node? (fuel : Nat) (least : Nat) (nests : Bool) (cur : Cursor) : Option (Json × Cursor) :=
  match fuel with
  | 0 => none
  | fuel + 1 =>
    if cur.atDash then
      if nests then sequence? fuel cur.column [] cur else none
    else
      let first := if cur.rest.head? = some '[' || cur.rest.head? = some '\x7b' then
        flow? fuel cur else scalar? false least cur
      match first with
      | none => none
      | some first =>
        if (behindColon? first).isSome then
          if nests then mapping? fuel cur.column [] cur else none
        else some (first.value, first.next)

/-- The entries of a sequence whose dashes stand in a column. -/
def sequence? (fuel : Nat) (column : Nat) (done : List Json) (cur : Cursor) :
    Option (Json × Cursor) :=
  match fuel with
  | 0 => none
  | fuel + 1 =>
    let inside := (cur.past ['-']).skip
    let item :=
      if inside.atEnd || (inside.fresh && inside.column ≤ column) then some (.null, inside)
      else node? fuel (column + 1) true inside
    match item with
    | none => none
    | some (value, next) =>
      let next := next.skip
      if next.isAt column && next.atDash && !next.atEnd then
        sequence? fuel column (value :: done) next
      else if next.isBehind (column + 1) then some (.arr (value :: done).reverse, next)
      else none

/-- The entries of a mapping whose keys stand in a column. -/
def mapping? (fuel : Nat) (column : Nat) (done : List (String × Json)) (cur : Cursor) :
    Option (Json × Cursor) :=
  match fuel with
  | 0 => none
  | fuel + 1 =>
    match scalar? false (column + 1) cur with
    | none => none
    | some key =>
      match behindColon? key with
      | none => none
      | some behind =>
        if key.single then
          let inside := behind.skip
          let value :=
            if inside.atEnd then some (.null, inside)
            else if inside.isAt column && inside.atDash then sequence? fuel column [] inside
            else if inside.fresh && inside.column ≤ column then some (.null, inside)
            else node? fuel (column + 1) inside.fresh inside
          match value with
          | none => none
          | some (value, next) =>
            let next := next.skip
            let entries := (Scalar.keyText key.value, value) :: done
            if next.isBehind column then some (mappingOf entries, next)
            else if next.isAt column then mapping? fuel column entries next
            else none
        else none

end

/-! ## Documents -/

/-- Whether a text may hold a character. -/
def isPrintable (c : Char) : Bool :=
  let n := c.toNat
  n = 9 || n = 10 || n = 13 || (0x20 ≤ n && n ≤ 0x7e) || n = 0x85 || (0xa0 ≤ n && n ≤ 0xd7ff) ||
    (0xe000 ≤ n && n ≤ 0xfffd) || 0x10000 ≤ n

/-- Line breaks in one spelling. -/
def unixLines : List Char → List Char
  | [] => []
  | '\r' :: '\n' :: cs => '\n' :: unixLines cs
  | '\r' :: cs => '\n' :: unixLines cs
  | c :: cs => c :: unixLines cs

/-- The place behind the mark that may begin a document. -/
def behindStart (cur : Cursor) : Cursor :=
  if cur.fresh && cur.column = 0 && atMarks '-' cur.rest then
    (cur.past ['-', '-', '-']).skip
  else cur

/-- Whether nothing is left of a document: its end, or marks of its end. The fuel is the length of
the text. -/
def isOver (fuel : Nat) (cur : Cursor) : Bool :=
  match fuel with
  | 0 => cur.rest.isEmpty
  | fuel + 1 =>
    cur.rest.isEmpty ||
      (cur.fresh && cur.column = 0 && atMarks '.' cur.rest &&
        isOver fuel (cur.past ['.', '.', '.']).skip)

/-- The value of a text that holds one document; an empty text holds null. -/
def parse? (text : String) : Option Json :=
  let cs := unixLines text.toList
  if cs.all isPrintable then
    let start := behindStart (Cursor.mk cs 0 true).skip
    if start.atEnd then if isOver cs.length start then some .null else none
    else
      match node? (4 * cs.length + 4) 0 start.fresh start with
      | none => none
      | some (value, next) => if isOver cs.length next.skip then some value else none
  else none

end Stageflow.Yaml
