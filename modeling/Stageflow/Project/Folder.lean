import Stageflow.Document.Source
import Stageflow.Json.Parser
import Stageflow.Project.Tree
import Stageflow.System.Notice
import Stageflow.Yaml.Parser

/-!
# The folder of a project

A project keeps its settings, its team documents and its fragments in one folder, which is looked
for from a place upward. A file that cannot be used is passed over with a notice.
-/

namespace Stageflow.Project

/-! ## Names -/

/-- The name of the folder of a project. -/
def folderName : String := ".idlc"

/-- The name of the settings file. -/
def settingsName : String := "config.json"

/-- The name of the folder of team documents. -/
def teamsName : String := "teams"

/-- The name of the folder of fragments. -/
def fragmentsName : String := "fragments"

/-- The name of the log file. -/
def logName : String := "idlc.log"

/-- The name of a file without its suffix, and the suffix with its dot. A dot in front begins no
suffix, and a dot at the end is none. -/
def splitSuffix (name : String) : String × String :=
  let cs := name.toList
  let tail := (cs.reverse.takeWhile (· ≠ '.')).reverse
  let stem := cs.take (cs.length - tail.length - 1)
  if tail.isEmpty || stem.isEmpty then (name, "")
  else (String.ofList stem, "." ++ String.ofList tail)

/-- Whether the name of a file says that it holds a document. -/
def isDocumentName (name : String) : Bool :=
  [".json", ".yaml", ".yml"].any fun suffix => suffix.toList.isSuffixOf name.toList

/-! ## Finding the folder -/

/-- The folder of the project that a place belongs to: the one of the nearest folder upward. -/
def find (tree : Tree) (start : Path) : Except Fault Path :=
  match (start.upward.map (· ++ [folderName])).find? tree.isFolder with
  | some folder => .ok folder
  | none => .error (.noProject (tree.location start))

/-- Makes sure that the log can be written. -/
def checkLog (tree : Tree) (project : Path) : Except Fault Unit :=
  let path := project ++ [logName]
  if tree.isFolder path then .error (.isFolder (tree.location path)) else .ok ()

/-! ## Settings -/

/-- The settings of a project, with what is to be noted. Without a settings file, or with one that
holds no object, the defaults hold; only a number that is too large ends the reading. -/
def settings (tree : Tree) (project : Path) : List Notice × Except Fault Settings :=
  let path := project ++ [settingsName]
  let file := tree.location path
  match tree.get? path with
  | none => ([], .ok {})
  | some .folder => ([.settingsUnread file (.isFolder file)], .ok {})
  | some (.file text) =>
    match Json.read text with
    | .error .malformed => ([.settingsUnread file .notJson], .ok {})
    | .error unread => ([], .error (.ofUnread unread))
    | .ok (.obj fields) =>
      let reading := Settings.ofFields fields
      (reading.problems.map (.badSetting file), reading.value.mapError fun _ => .defect .tooLarge)
    | .ok _ => ([.settingsShape file], .ok {})

/-- The text of a settings file. -/
def settingsText (value : Json) : String := value.indented ++ "\n"

/-! ## Documents -/

/-- The files of a folder that are to hold documents, in order. -/
def documentNames (tree : Tree) (folder : Path) : List String :=
  (tree.names folder).filter isDocumentName

/-- The value in a file of a folder: YAML by its suffix, else JSON. -/
def value (tree : Tree) (folder : Path) (name : String) : Except Fault Json :=
  match tree.get? (folder ++ [name]) with
  | some (.file text) =>
    if [".yaml", ".yml"].contains (splitSuffix name).2 then
      match Yaml.parse? text with
      | some v => .ok v
      | none => .error .notYaml
    else
      (Json.read text).mapError .ofUnread
  | _ => .error (.isFolder (tree.location (folder ++ [name])))

/-- The fragment in a file, or the notice that there is none. -/
def fragment (tree : Tree) (folder : Path) (name : String) : Except Notice Json :=
  match value tree folder name with
  | .error fault => .error (.fragmentUnread name fault)
  | .ok (.arr xs) => .ok (.arr xs)
  | .ok (.obj fs) => .ok (.obj fs)
  | .ok _ => .error (.fragmentShape name)

/-- The team document in a file, or the notice that there is none. -/
def team (tree : Tree) (folder : Path) (name : String) : Except Notice TeamDocument :=
  match value tree folder name with
  | .error fault => .error (.teamUnread name fault)
  | .ok (.obj fields) =>
    (TeamDocument.ofFields fields).mapError fun d => .teamUnread name (.defect d)
  | .ok _ => .error (.teamUnread name .notMapping)

/-- The notices of readings that failed. -/
def notices {α : Type} (readings : List (Except Notice α)) : List Notice :=
  readings.filterMap fun
    | .error notice => some notice
    | .ok _ => none

/-- The documents and fragments of a project, with what is to be noted. A fragment is named by its
file, a document by the id in it; of two with one id the later file counts. The fragments that are
built in serve behind those of the project, and so do the enabled ones of the built-in documents. -/
def source (tree : Tree) (project : Path) (enabled : List String) : List Notice × Source :=
  let fragmentsFolder := project ++ [fragmentsName]
  let fragmentNames := documentNames tree fragmentsFolder
  let fragments := fragmentNames.map (fragment tree fragmentsFolder)
  let teamsFolder := project ++ [teamsName]
  let teams := (documentNames tree teamsFolder).map (team tree teamsFolder)
  let empty : Source := {
    fragments := Table.ofPairs ((fragmentNames.zip fragments).filterMap fun p =>
      p.2.toOption.map fun v => ((splitSuffix p.1).1, v))
    templates := Builtin.templates.filter fun p => enabled.contains p.1
    shared := Builtin.fragments }
  (notices fragments ++ notices teams,
    (teams.filterMap Except.toOption).foldl Source.putDocument empty)

end Stageflow.Project
