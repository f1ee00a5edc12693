import Stageflow.System.Cascade

/-!
# Editing and activating documents

Storing team documents and fragments, and turning a team's document into the next version of its
workflow. A document that cannot be activated leaves the active version as it is.
-/

namespace Stageflow

namespace Run

/-! ## Editing -/

/-- The version of a stored document; zero where none is stored. -/
def documentVersion (s : System) (team : String) : Int := (s.documentVersions.get? team).getD 0

/-- Stores a document at a version. -/
def storeDocument (document : TeamDocument) (version : Int) : Run Unit :=
  modify fun s =>
    { s.edit (·.putDocument document) with
      documentVersions := s.documentVersions.put document.id version }

/-- Stores a document, whatever version is stored. -/
def putDocument (raw : Json) : Run TeamDocument := do
  let document ← ofReading (TeamDocument.parse raw)
  storeDocument document (documentVersion (← get) document.id + 1)
  return document

/-- Stores a document if its stored version is the expected one. -/
def saveDocument (raw : Json) (expected : Int) : Run Int := do
  let document ← ofReading (TeamDocument.parse raw)
  let current := documentVersion (← get) document.id
  if current ≠ expected then raise (.stale document.id expected current)
  else
    storeDocument document (expected + 1)
    return expected + 1

/-- Stores a fragment. -/
def putFragment (name : String) (fragment : Json) : Run Unit :=
  modify (System.edit (·.putFragment name fragment))

/-! ## Activation -/

/-- Resolves a document. -/
def resolve (document : TeamDocument) : Run MergedDocument := do
  match (← get).source.resolve document with
  | .ok merged => return merged
  | .error (.issues issues) =>
    note (.resolutionFailed document.id issues.length)
    raise (.unresolved document.id issues)
  | .error (.defect d) => raise (.defect d)

/-- Compiles a merged document to a version. -/
def compile (merged : MergedDocument) (version : Int) : Run Workflow := do
  match merged.compile version with
  | .ok w =>
    w.warnings.forM fun warning => note (.quality merged.team warning)
    return w
  | .error (.invalid issues) =>
    note (.validationFailed merged.team (issues.filter fun i => !i.isWarning).length)
    raise (.invalid merged.team issues)
  | .error (.defect d) => raise (.defect d)

/-- The first turn of an activation: reads the document of the team and resolves it. -/
def draft (team : String) : Run MergedDocument := do
  match (← get).source.document? team with
  | none => raise (.noDocument team)
  | some document => resolve document

/-- The second turn of an activation: compiles what was read to the next version of the team, and
publishes it. -/
def issue (team : String) (merged : MergedDocument) : Run Workflow := do
  let w ← compile merged ((← get).registry.nextVersion team)
  modify fun s => { s with registry := s.registry.publish w }
  return w

/-- Makes the document of a team the next version of its workflow, and that one active. -/
def activate (team : String) : Run Workflow := do issue team (← draft team)

/-- An activation up to the store: the next version is in memory and active, and not yet saved. -/
def renew (team : String) : Run Workflow := do
  let merged ← draft team
  let w ← compile merged ((← get).registry.nextVersion team)
  modify fun s => { s with registry := s.registry.enter w }
  return w

/-- Saves a version in the store in memory. -/
def keep (w : Workflow) : Run Unit :=
  modify fun s =>
    { s with registry.saved := s.registry.saved.put (w.team, w.version) w }

/-- What is published is what is taken into memory, and then saved. -/
theorem activate_eq_renew (team : String) :
    activate team = do
      let w ← renew team
      keep w
      return w := by
  unfold activate renew
  simp only [bind_assoc]
  rfl

/-- Whether a failure to activate one team lets the others go on. -/
def isLocal : Fault → Bool
  | .unresolved .. | .invalid .. => true
  | fault => fault.isMissing

/-- Activates teams one after another; failures are collected. -/
def activateTeams : List String → Run (List Workflow × Table String Fault)
  | [] => return ([], [])
  | team :: rest => do
    match ← attempt (activate team) with
    | .ok w =>
      let (done, failures) ← activateTeams rest
      return (w :: done, failures)
    | .error fault =>
      if isLocal fault then
        note (.notActivated team fault)
        let (done, failures) ← activateTeams rest
        return (done, (team, fault) :: failures)
      else raise fault

/-- Activates every team with a stored document. -/
def activateAll : Run (List Workflow × Table String Fault) := do
  activateTeams (← get).source.teamIds

end Run

/-! ## Checking -/

/-- What a check of a team's document found. -/
structure CheckReport where
  team : String
  resolutionIssues : List ResolutionIssue := []
  validationIssues : List ValidationIssue := []
  lineage : List String := []

/-- Whether nothing stands against the document. -/
def CheckReport.ok (report : CheckReport) : Bool :=
  report.resolutionIssues.isEmpty && report.validationIssues.all (·.isWarning)

/-- Resolves and validates the document of a team without activating it. -/
def Source.check (source : Source) (team : String) : Except Defect CheckReport :=
  match source.document? team with
  | none => .ok { team, resolutionIssues := [⟨team, .unknownTeam⟩] }
  | some document =>
    match source.resolve document with
    | .error (.issues issues) => .ok { team, resolutionIssues := issues }
    | .error (.defect d) => .error d
    | .ok merged => do
      return { team, validationIssues := ← merged.issues, lineage := merged.lineage }

/-- The failure to resolve that a check comes upon, as it is noted. -/
def Source.checkNotice? (source : Source) (team : String) : Option Notice :=
  match source.document? team with
  | none => none
  | some document =>
    match source.resolve document with
    | .error (.issues issues) => some (.resolutionFailed document.id issues.length)
    | _ => none

namespace Run

/-- Checks the document of a team. -/
def check (team : String) : Run CheckReport := do
  let source := (← get).source
  (source.checkNotice? team).forM note
  ofReading (source.check team)

/-! ## Closing down -/

/-- The parts of a system that can be closed. -/
inductive Part where
  | automation
  | runner
  | dispatcher
  | engine
  | registry
  deriving DecidableEq, Repr

/-- Closes a part. -/
def closePart (part : Part) : Run Unit :=
  match part with
  | .automation =>
    changeAutomation fun a => { a with running := false, watches := [], rules := [] }
  | .runner => modify fun s => { s with runner := { s.runner with closed := true } }
  | .dispatcher =>
    modify fun s =>
      { s with dispatcher := { s.dispatcher with closed := true, subscribers := [] } }
  | .engine => pure ()
  | .registry => modify fun s => { s with registry := s.registry.close }

/-- Closes all parts. -/
def closeAll : Run Unit :=
  [Part.automation, .runner, .dispatcher, .engine, .registry].forM closePart

/-- Starts the evaluator, unless it runs. -/
def startEvaluator : Run Unit := do
  if (← get).automation.running then note .evaluatorRunning
  else changeAutomation fun a => { a with running := true }

/-- Stops the evaluator. -/
def stopEvaluator : Run Unit := changeAutomation fun a => { a with running := false }

/-- Ends watches of an item, all or that of one rule. The answer counts them. -/
def disarm (item : String) (rule : Option String) : Run Nat := do
  let watches := (← get).automation.watches
  let ended := watches.select fun key _ => Watches.isOf item rule key
  setWatches (watches.select fun key _ => !Watches.isOf item rule key)
  ended.values.forM fun watch => note (.disarmed watch)
  return ended.length

/-- Moves the clock. -/
def advance (seconds : Json) : Run Instant := do
  let now := (← get).clock
  let clock ← ofReading (do now.add (← Span.ofJson seconds))
  modify fun s => { s with clock }
  return clock

end Run

end Stageflow
