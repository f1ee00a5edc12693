import Stageflow.Log.Journal
import Stageflow.Project.CommandLine

/-!
# The program

Reads the folders of projects around the current folder into a tree, runs the command line on it,
and writes what is new in the tree to the disk.
-/

namespace Stageflow.Program

/-- The tree with what is on the disk at a path, and what lies in it down to a number of levels. -/
def load (levels : Nat) (path : Path) (tree : Tree) : IO Tree := do
  let place := (← IO.currentDir) / tree.location path
  if ← place.isDir then
    let tree := tree.addFolders path
    match levels with
    | 0 => return tree
    | levels + 1 =>
      (← place.readDir).foldlM (fun tree entry => load levels (path ++ [entry.fileName]) tree) tree
  else if (← place.pathExists) && path.getLast? ≠ some Project.logName then
    return tree.addFile path (← IO.FS.readFile place)
  else return tree

/-- Writes what is new in a tree. -/
def store (before after : Tree) : IO Unit := do
  for (path, entry) in after.entries do
    if (before.get? path).isNone then
      let place := (← IO.currentDir) / after.location path
      match entry with
      | .folder => IO.FS.createDirAll place
      | .file text => IO.FS.writeFile place text

/-- Writes lines behind those of the log of the project that a folder belongs to. -/
def log (tree : Tree) (folder : Path) (lines : List String) : IO Unit := do
  match Project.find tree folder with
  | .error _ => return
  | .ok project =>
    if !lines.isEmpty then
      let place := (← IO.currentDir) / tree.location (project ++ [Project.logName])
      IO.FS.withFile place .append fun handle => lines.forM handle.putStrLn

end Stageflow.Program

open Stageflow in
/-- Runs a command line in the current folder. -/
def main (args : List String) : IO UInt32 := do
  let folder := Path.follow [] (← IO.currentDir).toString
  let projects := folder.upward.map (· ++ [Project.folderName])
  let before ← projects.foldlM (fun tree path => Program.load 2 path tree)
    ((({} : Tree).addFolders folder))
  let outcome := CommandLine.run before folder args
  Program.store before outcome.tree
  Program.log outcome.tree folder (Log.linesOf outcome.journal)
  IO.print outcome.out
  IO.eprint outcome.err
  match outcome.fault with
  | some fault => IO.eprintln fault.message
  | none => pure ()
  return outcome.status.toUInt32
