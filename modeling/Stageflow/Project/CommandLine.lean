import Stageflow.Project.Start
import Stageflow.Record.Workflow

/-!
# The command line

Three commands: to lay out the folder of a project, to check team documents, and to show the moves
of a team's workflow. `CommandLine.run` says what a command line prints, which status it exits with,
and what becomes of the files.
-/

namespace Stageflow.CommandLine

/-! ## Commands -/

/-- What a command line asks for. -/
inductive Command where
  | init (team : Option String)
  | check (teams : List String) (asJson : Bool)
  | transitions (team : String) (asJson : Bool)
  deriving DecidableEq, Repr

/-- Whether an argument is an option rather than a value. -/
def isOption (arg : String) : Bool :=
  match arg.toList with
  | '-' :: _ :: _ => true
  | _ => false

/-- The values among arguments, and whether the flag for JSON is among them. Behind two dashes all
are values. -/
def valuesAndFlag? : List String → Option (List String × Bool)
  | [] => some ([], false)
  | arg :: rest =>
    if arg = "--" then some (rest, false)
    else if arg = "--json" then (valuesAndFlag? rest).map fun p => (p.1, true)
    else if isOption arg then none
    else (valuesAndFlag? rest).map fun p => (arg :: p.1, p.2)

/-- The value behind the option for a team in one argument. -/
def teamValue? (arg : String) : Option String :=
  let lead := "--team=".toList
  if lead.isPrefixOf arg.toList then some (String.ofList (arg.toList.drop lead.length)) else none

/-- The team that the arguments name; the last option counts. -/
def teamOption? (team : Option String) : List String → Option (Option String)
  | [] => some team
  | "--team" :: value :: rest => teamOption? (some value) rest
  | arg :: rest =>
    match teamValue? arg with
    | some value => teamOption? (some value) rest
    | none => if arg = "--" && rest.isEmpty then some team else none

/-- The command of a command line, if it is one. -/
def Command.parse? : List String → Option Command
  | "init" :: rest => (teamOption? none rest).map .init
  | "check" :: rest => (valuesAndFlag? rest).map fun p => .check p.1 p.2
  | "transitions" :: rest => do
    match ← valuesAndFlag? rest with
    | ([team], asJson) => return .transitions team asJson
    | _ => none
  | _ => none

/-! ## Printing and files -/

/-- The files, what was printed, and what was noted, the newest notice first. -/
structure Console where
  tree : Tree
  folder : Path
  out : String := ""
  err : String := ""
  journal : List Notice := []

/-- How a command ends early: with an exit status, or with a fault that it does not handle. -/
inductive Stop where
  | exit (status : Nat)
  | fault (fault : Fault)

/-- A command at work. What it did before it stopped stays done. -/
abbrev Shell := EStateM Stop Console

/-- Prints a line. -/
def say (line : String) : Shell Unit := modify fun c => { c with out := c.out ++ line ++ "\n" }

/-- Prints a line among the errors and exits. -/
def refuse {α : Type} (line : String) : Shell α := do
  modify fun c => { c with err := c.err ++ line ++ "\n" }
  throw (.exit 1)

/-- How a path is written. -/
def location (path : Path) : Shell String := return (← get).tree.location path

/-- Changes the files. -/
def change (edit : Tree → Tree) : Shell Unit := modify fun c => { c with tree := edit c.tree }

/-- Makes a folder unless it is there. A file in its place is in the way, and so is one in the place
of the folder that it is to lie in. -/
def makeFolder (path : Path) : Shell Unit := do
  let tree := (← get).tree
  match tree.get? path with
  | some .folder => return
  | some (.file _) => throw (.fault (.fileExists (tree.location path)))
  | none =>
    if tree.isFolder path.dropLast then change (·.addFolder path)
    else throw (.fault (.notFolder (tree.location path)))

/-- Runs a computation on the project that the folder belongs to. -/
def inProject {α : Type} (action : Run α) : Shell (Except Fault α) := do
  let c ← get
  match Project.find c.tree c.folder with
  | .error _ => refuse s!"No {Project.folderName}/ found. Run 'idlc init' first."
  | .ok project =>
    let whole : Run (Except Fault α) := do
      Run.openProject c.tree project
      Run.attempt action
    match whole.run {} with
    | .ok result s =>
      set { c with journal := s.journal ++ c.journal }
      return result
    | .error (.raised fault) s =>
      set { c with journal := s.journal ++ c.journal }
      throw (.fault fault)
    | .error .hung _ => throw (.exit 1)

/-! ## The commands -/

/-- The document that a new team starts with. -/
def starter (team : String) : Json :=
  .obj [("team", .obj [("id", .str team), ("name", .str team)]), ("extends", .str "default")]

/-- Lays out the folder of a project, with the document of a team if one is named. -/
def init (team : Option String) : Shell Unit := do
  match team.map fun id => identifier "team" (.str id) with
  | some (.error d) => refuse d.message
  | _ => pure ()
  let here := (← get).folder
  let project := here ++ [Project.folderName]
  if ((← get).tree.get? project).isSome then
    say s!"{Project.folderName}/ already exists in {← location here}"
  else
    change (·.addFolder project)
    change (·.addFile (project ++ [Project.settingsName])
      (Project.settingsText (Settings.toJson {})))
    say s!"Initialized {Project.folderName}/ in {← location here}"
  makeFolder (project ++ [Project.teamsName])
  makeFolder (project ++ [Project.fragmentsName])
  match team with
  | none => pure ()
  | some id =>
    let file := project ++ [Project.teamsName, id ++ ".json"]
    if ((← get).tree.get? file).isSome then
      say s!"  Team config already exists: {← location file}"
    else
      change (·.addFile file (Project.settingsText (starter id)))
      say s!"  Team config: {← location file}"
  say "\nNext: idlc check"

/-- The lines of a report. -/
def reportLines (report : CheckReport) : List String :=
  let label := if report.ok then "OK  " else "FAIL"
  let lineage := if report.lineage.isEmpty then "" else s!" ({Text.arrows report.lineage})"
  s!"{label} {report.team}{lineage}" ::
    (report.resolutionIssues.map fun i => s!"  error [{i.kind}] {i.message}") ++
    report.validationIssues.map fun i => s!"  {i.severity} [{i.kind}] {i.message}"

/-- The reports on teams, or on all that have a document if none is named. -/
def reports (teams : List String) : Run (List CheckReport) := do
  let source := (← get).source
  (if teams.isEmpty then source.teamIds else teams).mapM Run.check

/-- Checks the documents of teams; the exit status tells whether all are sound. -/
def check (teams : List String) (asJson : Bool) : Shell Unit := do
  match ← inProject (reports teams) with
  | .error fault => throw (.fault fault)
  | .ok [] => refuse s!"No team configs found in {Project.folderName}/{Project.teamsName}/"
  | .ok reports =>
    if asJson then say (Json.arr (reports.map CheckReport.toJson)).indented
    else (reports.flatMap reportLines).forM say
    if !reports.all (·.ok) then throw (.exit 1)

/-- Text that takes a value in. A value that cannot be written ends the command. -/
def written (value : Json) (text : String) : Shell String :=
  if value.isWritable then pure text else throw (.fault (.defect .unwritable))

/-- Prints a stage with its statuses and where they lead. -/
def showStage (w : Workflow) (stage : Stage) : Shell Unit := do
  let statusLine (s : Status) : String :=
    let targets := w.destinations s.id
    s!"  {s.id} -> " ++ (if targets.isEmpty then "(none)" else Text.commas targets)
  let mark := if stage.terminal then " [terminal]" else if stage.required then "" else " [optional]"
  say (← written stage.name s!"\n{stage.name.display}{mark}")
  ((w.statuses.filter (·.stage = stage.id)).map statusLine).forM say

/-- Prints a workflow stage by stage, and what is to be said about it. -/
def showWorkflow (w : Workflow) : Shell Unit := do
  say (← written w.name
    s!"{w.name.display} ({w.team}), initial status: {w.initialStatus}")
  w.stages.forM (showStage w)
  (w.warnings.map fun warning => s!"\nwarning: {warning}").forM say

/-- Whether a failure to activate is told to the user rather than left unhandled. -/
def isTold : Fault → Bool := Run.isLocal

/-- Shows the moves of the workflow that a team's document makes. -/
def transitions (team : String) (asJson : Bool) : Shell Unit := do
  match ← inProject (Run.activate team) with
  | .ok w =>
    if asJson then say (← written w.describe w.describe.indented) else showWorkflow w
  | .error fault => if isTold fault then refuse fault.message else throw (.fault fault)

/-! ## Running a command line -/

/-- What came of a command line. -/
structure Outcome where
  status : Nat
  out : String
  err : String
  fault : Option Fault
  tree : Tree
  journal : List Notice

/-- How the commands are used. -/
def usage : String :=
  "Usage: idlc init [--team ID]\n       idlc check [TEAM ...] [--json]\n" ++
    "       idlc transitions TEAM [--json]\n"

/-- Carries out a command. -/
def perform : Command → Shell Unit
  | .init team => init team
  | .check teams asJson => check teams asJson
  | .transitions team asJson => transitions team asJson

/-- What a command line does, given in a folder of a tree. -/
def run (tree : Tree) (folder : Path) (args : List String) : Outcome :=
  match Command.parse? args with
  | none => ⟨2, "", usage, none, tree, []⟩
  | some command =>
    match (perform command).run { tree, folder } with
    | .ok _ c => ⟨0, c.out, c.err, none, c.tree, c.journal⟩
    | .error (.exit status) c => ⟨status, c.out, c.err, none, c.tree, c.journal⟩
    | .error (.fault fault) c => ⟨1, c.out, c.err, some fault, c.tree, c.journal⟩

end Stageflow.CommandLine
