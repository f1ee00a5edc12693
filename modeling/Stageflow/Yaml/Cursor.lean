/-!
# Places in a YAML text

A `Cursor` is what is left of a text with the column it begins at, and whether nothing but blanks
stands before it on its line. Columns carry the structure of a block, so every token is read from a
cursor to a cursor.
-/

namespace Stageflow.Yaml

/-- The rest of a text and where it begins. -/
structure Cursor where
  rest : List Char
  column : Nat
  fresh : Bool
  deriving Repr

/-- Whether a character is a blank or ends a line. -/
def isGap (c : Char) : Bool := c = ' ' || c = '\t' || c = '\n'

/-- Whether a text begins with a gap or is at its end. -/
def atGap : List Char → Bool
  | [] => true
  | c :: _ => isGap c

/-- Whether a text begins with three marks and a gap. -/
def atMarks (mark : Char) : List Char → Bool
  | a :: b :: c :: rest => a = mark && b = mark && c = mark && atGap rest
  | _ => false

/-- Whether a line begins with the mark of the beginning or the end of a document. -/
def atBoundary (cs : List Char) : Bool := atMarks '-' cs || atMarks '.' cs

/-- Goes over blanks, line breaks and comments, from a column on. -/
def skipFrom (column : Nat) (fresh comment : Bool) : List Char → Cursor
  | [] => ⟨[], column, fresh⟩
  | c :: cs =>
    if c = '\n' then skipFrom 0 true false cs
    else if comment then skipFrom (column + 1) fresh true cs
    else if c = ' ' then skipFrom (column + 1) fresh false cs
    else if c = '#' then skipFrom (column + 1) fresh true cs
    else ⟨c :: cs, column, fresh⟩

namespace Cursor

/-- The next token, behind blanks, line breaks and comments. -/
def skip (cur : Cursor) : Cursor := skipFrom cur.column cur.fresh false cur.rest

/-- The place behind some characters, the column counted from the last line break among them. -/
def past (consumed : List Char) (cur : Cursor) : Cursor :=
  let column := consumed.foldl (fun n c => if c = '\n' then 0 else n + 1) cur.column
  ⟨cur.rest.drop consumed.length, column, false⟩

/-- The place where a tail of the rest begins. -/
def upTo (tail : List Char) (cur : Cursor) : Cursor :=
  cur.past (cur.rest.take (cur.rest.length - tail.length))

/-- Whether the document is over. -/
def atEnd (cur : Cursor) : Bool :=
  cur.rest.isEmpty || (cur.fresh && cur.column = 0 && atBoundary cur.rest)

/-- Whether an entry of a sequence begins. -/
def atDash (cur : Cursor) : Bool :=
  match cur.rest with
  | '-' :: rest => atGap rest
  | _ => false

/-- Whether a block that begins at a column is over. -/
def isBehind (column : Nat) (cur : Cursor) : Bool :=
  cur.atEnd || (cur.fresh && cur.column < column)

/-- Whether the next entry of a block that begins at a column stands here. -/
def isAt (column : Nat) (cur : Cursor) : Bool := cur.fresh && cur.column = column

end Cursor

end Stageflow.Yaml
