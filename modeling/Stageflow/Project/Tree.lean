import Stageflow.Table
import Stageflow.Text.Order

/-!
# Trees of files

Folders and files by their paths. A `Tree` is what a project is read from and written to;
`Tree.get?` is the view that the lemmas describe its changes by.
-/

namespace Stageflow

/-- The names on the way from the root of a tree. -/
abbrev Path := List String

namespace Path

/-- One step along a path: an empty name and a single dot stay, two dots go back. -/
def step (path : Path) (name : String) : Path :=
  if name = "" || name = "." then path
  else if name = ".." then path.dropLast
  else path ++ [name]

/-- The path that a text leads to from a folder; a text that begins with a slash starts at the root.
-/
def follow (folder : Path) (text : String) : Path :=
  let names := (text.toList.splitOn '/').map String.ofList
  names.foldl step (if text.toList.head? = some '/' then [] else folder)

/-- A path and those of the folders it lies in, the innermost first. -/
def upward (path : Path) : List Path :=
  (List.range (path.length + 1)).map fun n => path.take (path.length - n)

end Path

/-- What a path leads to. -/
inductive Entry where
  | folder
  | file (text : String)
  deriving DecidableEq, Repr

/-- Folders and files by path. `root` is how the root is written in messages. -/
structure Tree where
  root : String := ""
  entries : Table Path Entry := []
  deriving Repr

namespace Tree

/-- How a path is written. -/
def location (tree : Tree) (path : Path) : String :=
  let below := String.join (path.map ("/" ++ ·))
  if tree.root.isEmpty && path.isEmpty then "/" else tree.root ++ below

/-- What a path leads to; the root is a folder. -/
def get? (tree : Tree) (path : Path) : Option Entry :=
  if path.isEmpty then some .folder else tree.entries.get? path

/-- Whether a path leads to a folder. -/
def isFolder (tree : Tree) (path : Path) : Bool := tree.get? path = some .folder

/-- The names in a folder, by code point. -/
def names (tree : Tree) (folder : Path) : List String :=
  Text.sorted (tree.entries.filterMap fun p =>
    if p.1.dropLast = folder then p.1.getLast? else none)

/-- The tree with an entry at a path. -/
def put (path : Path) (entry : Entry) (tree : Tree) : Tree :=
  { tree with entries := tree.entries.put path entry }

/-- The tree with a folder at a path where nothing was. -/
def addFolder (tree : Tree) (path : Path) : Tree :=
  if (tree.get? path).isSome then tree else tree.put path .folder

/-- The tree with a folder at a path and with those it lies in. -/
def addFolders (tree : Tree) (path : Path) : Tree := path.upward.reverse.foldl addFolder tree

/-- The tree with a file at a path and with the folders it lies in. -/
def addFile (tree : Tree) (path : Path) (text : String) : Tree :=
  (tree.addFolders path.dropLast).put path (.file text)

/-- The paths of the folders, as they are written from the root on. -/
def folders (tree : Tree) : List String :=
  Text.sorted (tree.entries.filterMap fun p =>
    if p.2 = .folder then some ("/".intercalate p.1) else none)

/-- The texts of the files by path, as it is written from the root on. -/
def files (tree : Tree) : Table String String :=
  tree.entries.filterMap fun p =>
    match p.2 with
    | .file text => some ("/".intercalate p.1, text)
    | .folder => none

@[simp] theorem get?_put_self (path : Path) (entry : Entry) (tree : Tree) (h : path ≠ []) :
    (tree.put path entry).get? path = some entry := by
  simp [get?, put, h]

theorem get?_put_of_ne {path other : Path} (h : other ≠ path) (entry : Entry) (tree : Tree) :
    (tree.put path entry).get? other = tree.get? other := by
  simp only [get?, put]
  split
  · rfl
  · exact Table.get?_put_of_ne h entry tree.entries

end Tree

end Stageflow
