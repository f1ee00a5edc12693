import Stageflow.Project.Folder
import Stageflow.System.Documents

/-!
# Starting on a project

A system that runs on a project takes its settings and its documents from the folder of the project,
and keeps what is edited later on a shelf of its own.
-/

namespace Stageflow.Run

/-- Takes the settings and the documents of a project. -/
def openProject (tree : Tree) (project : Path) : Run Unit := do
  ofExcept (Project.checkLog tree project)
  let (found, settings) := Project.settings tree project
  found.forM note
  let settings ← ofExcept settings
  let (found, source) := Project.source tree project settings.enabledTemplates
  found.forM note
  modify fun s => { s with settings, source, shelf := some (Source.empty true) }

/-- Opens the project that a place belongs to and activates all its teams; those that fail are
noted. -/
def startProject (tree : Tree) (start : Path) : Run Unit := do
  openProject tree (← ofExcept (Project.find tree start))
  let (_, failures) ← activateAll
  if !failures.isEmpty then note (.teamsFailed failures.keys)

end Stageflow.Run
