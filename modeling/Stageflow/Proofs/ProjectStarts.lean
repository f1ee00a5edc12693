import Stageflow.Project.CommandLine
import Stageflow.Proofs.Activations
import Stageflow.Proofs.BareDocuments
import Stageflow.Proofs.Folders
import Stageflow.Proofs.JsonText

/-!
# Starting a project

A project that is laid out in an empty folder, with the document of a team in it, passes its own
check: what is written is read back, the team is found, and it comes to what the built-in document
comes to, which it extends. A team under the id of the built-in document would extend itself.

## Main statements

* `init_apply` — what is laid out.
* `openProject_apply` — what a system makes of it.
* `check_of_init` — what a check of it prints.
-/

namespace Stageflow

open Project CommandLine

variable {tree : Tree} {folder project : Path} {id : String}

/-! ## What is written is read back -/

theorem read_settingsText {value : Json} (plain : value.IsPlain) :
    Json.read (settingsText value) = .ok value := by
  have hline : ∀ c ∈ ['\n'], Json.isSpace c := by simp [Json.isSpace]
  exact Json.read_textAt Json.legible_indented plain 0 hline

/-- The settings file of a new project holds the settings that hold without one. -/
theorem settings_of_standard
    (file : tree.get? (project ++ [settingsName]) =
      some (.file (settingsText (Settings.toJson {})))) :
    settings tree project = ([], .ok {}) := by
  have hread : ((Json.read (settingsText (Settings.toJson {}))).toOption.bind Json.fields?).any
      fun fields => (Settings.ofFields fields).problems.isEmpty &&
        decide ((Settings.ofFields fields).value = .ok {}) := by
    decide +kernel
  obtain ⟨fields, hfields, hclean⟩ := (Option.any_eq_true ..).1 hread
  obtain ⟨hproblems, hvalue⟩ := Bool.and_eq_true_iff.1 hclean
  rw [List.isEmpty_iff] at hproblems
  obtain ⟨value, hsome, hobject⟩ := Option.bind_eq_some_iff.1 hfields
  obtain rfl : value = .obj fields := by
    cases value <;> cases hobject
    rfl
  have hread : Json.read (settingsText (Settings.toJson {})) = .ok (.obj fields) :=
    toOption_eq_some.1 hsome
  unfold settings
  dsimp only
  rw [file]
  simp [hread, hproblems, of_decide_eq_true hvalue, Except.mapError]

theorem isDocumentName_json (stem : String) : isDocumentName (stem ++ ".json") := by
  simp only [isDocumentName, List.any_cons, Bool.or_eq_true]
  refine .inl (List.isSuffixOf_iff_suffix.2 ?_)
  rw [String.toList_append]
  exact List.suffix_append ..

theorem splitSuffix_json {stem : String} (hsome : stem ≠ "") :
    splitSuffix (stem ++ ".json") = (stem, ".json") := by
  have hchars : (stem ++ ".json").toList = stem.toList ++ ['.', 'j', 's', 'o', 'n'] := by simp
  have htail : ((stem ++ ".json").toList.reverse.takeWhile (· ≠ '.')).reverse =
      ['j', 's', 'o', 'n'] := by
    simp [hchars]
  have hstem : stem.toList.isEmpty = false := by simpa using hsome
  unfold splitSuffix
  dsimp only
  rw [htail, hchars]
  simp [hstem]

/-- The document that a team starts with, as it is read. -/
def starterDocument (id : String) : TeamDocument where
  id
  name := .str id
  description := .str ""
  version := "1.0"
  base := some "default"
  initialStatus := .null
  sections := .ofFunction fun _ => []

theorem isPlain_starter (id : String) : (starter id).IsPlain := by
  simp [starter, Json.IsPlain, Json.HavePlain]

/-- The file of a team document is read as the document. -/
theorem team_of_starter (accepted : Text.isIdentifier id)
    (file : tree.get? (folder ++ [id ++ ".json"]) = some (.file (settingsText (starter id)))) :
    team tree folder (id ++ ".json") = .ok (starterDocument id) := by
  have hsome : id ≠ "" := by
    rintro rfl
    cases accepted
  have hvalue : value tree folder (id ++ ".json") = .ok (starter id) := by
    unfold value
    rw [file, splitSuffix_json hsome]
    simp [read_settingsText (isPlain_starter id), Except.mapError]
  unfold team
  rw [hvalue]
  have hid : identifier "team" (.str id) = .ok id := by simp [identifier, accepted]
  have hread : TeamDocument.parse (starter id) = .ok (starterDocument id) :=
    bind_eq_ok.2 ⟨_, rfl, bind_eq_ok.2 ⟨id, hid, rfl⟩⟩
  exact congrArg (Except.mapError fun d => Notice.teamUnread (id ++ ".json") (.defect d)) hread

/-! ## The tree of a new project -/

/-- The tree with a new project in a folder, before there are teams. -/
def withProject (tree : Tree) (folder : Path) : Tree :=
  tree |>.put (folder ++ [folderName]) .folder
    |>.put (folder ++ [folderName, settingsName]) (.file (settingsText (Settings.toJson {})))
    |>.put (folder ++ [folderName, teamsName]) .folder
    |>.put (folder ++ [folderName, fragmentsName]) .folder

/-- The tree with a new project in a folder, and the document of a team in it. -/
def withTeam (tree : Tree) (folder : Path) (id : String) : Tree :=
  (withProject tree folder).put (folder ++ [folderName, teamsName, id ++ ".json"])
    (.file (settingsText (starter id)))

theorem names_differ : settingsName ≠ teamsName ∧ settingsName ≠ fragmentsName ∧
    teamsName ≠ fragmentsName := by decide

section Layout

variable (empty : tree.IsEmptyFolder folder)
include empty

/-- What is found below the folder of a new project: what was put there. -/
theorem get?_withProject {below : Path} (hsome : below ≠ []) :
    (withProject tree folder).get? (folder ++ below) =
      if below = [folderName, settingsName] then
        some (.file (settingsText (Settings.toJson {})))
      else if below = [folderName] ∨ below = [folderName, teamsName] ∨
        below = [folderName, fragmentsName] then some .folder
      else none := by
  have hdiffer := names_differ
  simp only [withProject, Tree.get?_put_below (List.cons_ne_nil _ _), empty.get?_below _ hsome]
  grind

theorem addFile_settings (text : String) :
    (tree.put (folder ++ [folderName]) .folder).addFile
        (folder ++ [folderName, settingsName]) text =
      (tree.put (folder ++ [folderName]) .folder).put
        (folder ++ [folderName, settingsName]) (.file text) := by
  have hfolder : (tree.put (folder ++ [folderName]) .folder).HasFolder (folder ++ [folderName]) :=
    (empty.hasFolder.put_below (by simp) _).concat _ (by simp)
  simpa using Tree.addFile_of_hasFolder hfolder settingsName text

theorem addFile_team (name text : String) :
    (withProject tree folder).addFile (folder ++ [folderName, teamsName, name]) text =
      (withProject tree folder).put (folder ++ [folderName, teamsName, name]) (.file text) := by
  have hfolder : (withProject tree folder).HasFolder (folder ++ [folderName] ++ [teamsName]) := by
    have hbefore : (withProject tree folder).HasFolder folder :=
      (((empty.hasFolder.put_below (by simp) _).put_below (by simp) _).put_below
        (by simp) _).put_below (by simp) _
    have hproject := hbefore.concat folderName (by simp [get?_withProject empty])
    exact hproject.concat teamsName (by simp [get?_withProject empty, names_differ.1.symm])
  simpa using Tree.addFile_of_hasFolder hfolder name text

end Layout

/-! ## Steps of a command -/

section Steps

variable {α β : Type} {c c' : Console}

theorem console_bind_apply (next : Console → Shell α) :
    ((get : Shell Console) >>= next) c = next c c := rfl

theorem say_bind_apply (line : String) (next : Unit → Shell α) :
    (say line >>= next) c = next () { c with out := c.out ++ line ++ "\n" } := rfl

theorem change_bind_apply (edit : Tree → Tree) (next : Unit → Shell α) :
    (change edit >>= next) c = next () { c with tree := edit c.tree } := rfl

theorem location_bind_apply (path : Path) (next : String → Shell α) :
    (location path >>= next) c = next (c.tree.location path) c := rfl

/-- Lines are printed one behind the other. -/
theorem forM_say_apply (lines : List String) (c : Console) :
    lines.forM say c =
      .ok () { c with out := c.out ++ String.join (lines.map (· ++ "\n")) } := by
  induction lines generalizing c with
  | nil =>
    rw [List.map_nil, String.join_nil, String.append_empty]
    rfl
  | cons line lines ih =>
    change (say line >>= fun _ => lines.forM say) c = _
    rw [say_bind_apply, ih, List.map_cons, String.join_cons]
    simp only [String.append_assoc]

/-- What comes to a value is followed by what is done with it. -/
theorem shell_bind_apply {action : Shell β} {b : β} (h : action c = .ok b c')
    (next : β → Shell α) : (action >>= next) c = next b c' := by
  change EStateM.bind action next c = _
  unfold EStateM.bind
  rw [h]

theorem makeFolder_apply {path : Path} (inside : c.tree.get? path.dropLast = some .folder)
    (unused : c.tree.get? path = none) :
    makeFolder path c = .ok () { c with tree := c.tree.put path .folder } := by
  have hinside : c.tree.isFolder path.dropLast := by simp [Tree.isFolder, inside]
  have hadd : c.tree.addFolder path = c.tree.put path .folder := by
    simp [Tree.addFolder, unused]
  unfold makeFolder
  rw [console_bind_apply]
  simp only [unused, hinside, if_true]
  rw [← hadd]
  rfl

/-- What comes to a value on the project that is found is run on it. -/
theorem inProject_apply {action : Run α} {s t : System} {a : α}
    (found : find c.tree c.folder = .ok project)
    (opened : Run.openProject c.tree project {} = .ok () s) (done : action s = .ok a t) :
    inProject action c = .ok (.ok a) { c with journal := t.journal ++ c.journal } := by
  have hwhole : EStateM.bind (Run.openProject c.tree project) (fun _ => Run.attempt action) {} =
      .ok (.ok a) t := by
    unfold EStateM.bind
    rw [opened]
    dsimp only
    rw [Run.attempt_apply, done]
  unfold inProject
  rw [console_bind_apply, found]
  dsimp only [EStateM.run, bind]
  rw [hwhole]
  rfl

end Steps

/-! ## Laying out -/

/-- What is laid out in an empty folder. -/
theorem init_apply (empty : tree.IsEmptyFolder folder) (accepted : Text.isIdentifier id) :
    ∃ out, init (some id) { tree, folder } =
      .ok () { tree := withTeam tree folder id, folder, out } := by
  have hid : identifier "team" (.str id) = .ok id := by simp [identifier, accepted]
  have hunused {below : Path} (hsome : below ≠ []) : tree.get? (folder ++ below) = none :=
    empty.get?_below below hsome
  have hproject : tree.get? (folder ++ [folderName]) = none := hunused (by simp)
  have hfirst : tree.addFolder (folder ++ [folderName]) =
      tree.put (folder ++ [folderName]) .folder := by
    simp [Tree.addFolder, hproject]
  unfold init
  simp only [Option.map_some, hid, console_bind_apply, location_bind_apply,
    change_bind_apply, say_bind_apply, hproject, Option.isSome_none, Bool.false_eq_true, if_false,
    List.append_assoc, List.cons_append, List.nil_append, hfirst, addFile_settings empty]
  -- What is left to do is to make the two folders, and then to add the file of the team.
  rw [shell_bind_apply (makeFolder_apply (by simp [Tree.get?_put_below])
    (by simp [Tree.get?_put_below, hunused, names_differ.1.symm]))]
  rw [shell_bind_apply (makeFolder_apply (by simp [Tree.get?_put_below])
    (by simp [Tree.get?_put_below, hunused, names_differ.2.1.symm, names_differ.2.2.symm])),
    console_bind_apply]
  dsimp only
  rw [← withProject, if_neg (by simp [get?_withProject empty])]
  simp only [change_bind_apply, location_bind_apply, addFile_team empty]
  exact ⟨_, rfl⟩

/-! ## Opening the project -/

/-- The documents of a new project: that of the team, and behind it the built-in ones. -/
def starterSource (id : String) : Source where
  documents := [(id, starterDocument id)]
  templates := Builtin.templates
  shared := Builtin.fragments

/-- There is one built-in document. It extends none, and nothing stands against it. -/
theorem exists_template : ∃ document merged, Builtin.templates = [("default", document)] ∧
    document.id = "default" ∧ document.base = none ∧
    (Source.empty true).resolve document = .ok merged ∧ merged.issues = .ok [] := by
  have hnames : Builtin.templates.map (·.1) = ["default"] := by decide +kernel
  have hclean : ∀ p ∈ Builtin.templates, p.2.id = "default" ∧ p.2.base = none ∧
      ((Source.empty true).resolve p.2).toOption.any fun merged =>
        merged.issues.toOption.any (·.isEmpty) := by
    decide +kernel
  obtain ⟨⟨name, document⟩, htemplates, rfl⟩ := List.map_eq_singleton_iff.1 hnames
  obtain ⟨hid, hroot, hresolve⟩ := hclean _ (htemplates ▸ List.mem_singleton_self _)
  obtain ⟨merged, hmerged, hissues⟩ := (Option.any_eq_true ..).1 hresolve
  obtain ⟨issues, hread, hnone⟩ := (Option.any_eq_true ..).1 hissues
  obtain rfl := List.isEmpty_iff.1 hnone
  exact ⟨document, merged, htemplates, hid, hroot, toOption_eq_some.1 hmerged,
    toOption_eq_some.1 hread⟩

section Opening

variable (empty : tree.IsEmptyFolder folder)
include empty

theorem get?_withTeam {below : Path} (hsome : below ≠ []) :
    (withTeam tree folder id).get? (folder ++ below) =
      if below = [folderName, teamsName, id ++ ".json"] then
        some (.file (settingsText (starter id)))
      else if below = [folderName, settingsName] then
        some (.file (settingsText (Settings.toJson {})))
      else if below = [folderName] ∨ below = [folderName, teamsName] ∨
        below = [folderName, fragmentsName] then some .folder
      else none := by
  rw [withTeam, Tree.get?_put_below (List.cons_ne_nil _ _), get?_withProject empty hsome]

theorem find_withTeam : find (withTeam tree folder id) folder = .ok (folder ++ [folderName]) := by
  have hproject : (withTeam tree folder id).isFolder (folder ++ [folderName]) := by
    simp [Tree.isFolder, get?_withTeam empty]
  obtain ⟨rest, hrest⟩ := Path.exists_upward_eq_cons folder
  simp [find, hrest, hproject]

theorem checkLog_withTeam :
    checkLog (withTeam tree folder id) (folder ++ [folderName]) = .ok () := by
  have hlog : (withTeam tree folder id).isFolder (folder ++ [folderName, logName]) = false := by
    have hdiffer : logName ≠ settingsName ∧ logName ≠ teamsName ∧ logName ≠ fragmentsName := by
      decide
    simp [Tree.isFolder, get?_withTeam empty, hdiffer]
  simp [checkLog, hlog]

theorem settings_withTeam :
    settings (withTeam tree folder id) (folder ++ [folderName]) = ([], .ok {}) := by
  refine settings_of_standard ?_
  simp [get?_withTeam empty]

/-- The names of the documents in the folders of a new project. -/
theorem documentNames_withTeam (id : String) :
    documentNames (withTeam tree folder id) (folder ++ [folderName] ++ [fragmentsName]) = [] ∧
      documentNames (withTeam tree folder id) (folder ++ [folderName] ++ [teamsName]) =
        [id ++ ".json"] := by
  simp only [List.append_assoc, List.cons_append, List.nil_append]
  have hnone (name : String) :
      (withProject tree folder).inFolder (folder ++ [folderName, name]) = [] := by
    refine Tree.inFolder_eq_nil fun other => ?_
    simp [get?_withProject empty]
  have hunused : (withProject tree folder).get? (folder ++ [folderName, teamsName, id ++ ".json"]) =
      none := by
    simp [get?_withProject empty]
  have hinside : (folder ++ [folderName, teamsName, id ++ ".json"]).dropLast =
      folder ++ [folderName, teamsName] := by
    simp
  have hlast : (folder ++ [folderName, teamsName, id ++ ".json"]).getLast? =
      some (id ++ ".json") := by
    simp
  have hsorted (name : String) : Text.sorted [name] = [name] := rfl
  constructor
  · rw [documentNames, Tree.names_eq, withTeam, Tree.inFolder_put hunused, hnone,
      hinside, if_neg (by simp [names_differ.2.2])]
    rfl
  · rw [documentNames, Tree.names_eq, withTeam, Tree.inFolder_put hunused, hnone,
      hinside, if_pos rfl, hlast, Option.toList_some, List.nil_append, hsorted]
    simp [isDocumentName_json]

theorem source_withTeam (accepted : Text.isIdentifier id) :
    source (withTeam tree folder id) (folder ++ [folderName]) ["default"] =
      ([], starterSource id) := by
  obtain ⟨hfragments, hteams⟩ := documentNames_withTeam empty id
  have hteam : team (withTeam tree folder id) (folder ++ [folderName] ++ [teamsName])
      (id ++ ".json") = .ok (starterDocument id) := by
    refine team_of_starter accepted ?_
    simp [get?_withTeam empty]
  have htemplates :
      Builtin.templates.filter (fun p => ["default"].contains p.1) = Builtin.templates := by
    obtain ⟨document, _, htemplates, -⟩ := exists_template
    simp [htemplates]
  unfold source
  simp only [hfragments, hteams, htemplates, List.map_cons, List.map_nil, hteam]
  rfl

/-- A system opens a new project with the settings that hold without one. -/
theorem openProject_apply (accepted : Text.isIdentifier id) :
    Run.openProject (withTeam tree folder id) (folder ++ [folderName]) {} =
      .ok () { source := starterSource id, shelf := some (Source.empty true) } := by
  have hquiet : ([] : List Notice).forM Run.note = pure () := rfl
  unfold Run.openProject
  simp only [checkLog_withTeam empty, settings_withTeam empty, hquiet,
    source_withTeam empty accepted, Run.ofExcept_bind_apply, pure_bind]
  rfl

end Opening

/-! ## Checking the team -/

/-- What the team of a new project comes to: what the built-in document comes to. -/
theorem exists_resolve_starter (other : id ≠ "default") :
    ∃ merged, (starterSource id).resolve (starterDocument id) = .ok merged ∧
      merged.lineage = ["default", id] ∧ merged.issues = .ok [] := by
  obtain ⟨document, base, htemplates, hid, hroot, hbase, hissues⟩ := exists_template
  have hfound : (starterSource id).document? "default" = some document := by
    simp [Source.document?, starterSource, Table.get?, htemplates, other]
  have hextends : (starterSource id).Extends (starterDocument id) document :=
    ⟨"default", rfl, hfound⟩
  have hparent : (starterSource id).resolve document = .ok base :=
    hbase ▸ Source.resolve_root (fun _ => rfl) hroot
  obtain ⟨heir, hheir, hlineage, hsections, hinitial⟩ := Source.resolve_bare
    (fun _ => PerSection.of_ofFunction ..) hextends hroot (hid ▸ other.symm) hparent
  refine ⟨heir, hheir, ?_, ?_⟩
  · rw [hlineage, hid]
    rfl
  · rw [MergedDocument.issues_congr hsections hinitial]
    exact hissues

/-- Nothing stands against the team of a new project. -/
theorem check_starter (other : id ≠ "default") :
    (starterSource id).check id = .ok { team := id, lineage := ["default", id] } ∧
      (starterSource id).checkNotice? id = none := by
  obtain ⟨merged, hmerged, hlineage, hissues⟩ := exists_resolve_starter other
  have hfound : (starterSource id).document? id = some (starterDocument id) := by
    simp [Source.document?, starterSource, Table.get?]
  constructor
  · simp [Source.check, hfound, hmerged, hissues, hlineage, bind, Except.bind, pure, Except.pure]
  · simp [Source.checkNotice?, hfound, hmerged]

/-- The line that tells that the team of a new project is in order. -/
def soundLine (id : String) : String := s!"OK   {id} (default -> {id})"

theorem reportLines_sound (id : String) :
    reportLines { team := id, lineage := ["default", id] } = [soundLine id] := by
  refine List.cons_eq_cons.2 ⟨String.toList_inj.1 ?_, rfl⟩
  simp only [soundLine, CheckReport.ok, Text.arrows, toString, String.toList_append]
  simp

/-- The team of a new project is what is reported on. -/
theorem reports_apply {s : System} {report : CheckReport} (hsource : s.source = starterSource id)
    (hreport : (starterSource id).check id = .ok report) : reports [] s =
      .ok [report] { s with
        journal := ((starterSource id).checkNotice? id).toList ++ s.journal } := by
  have hteams : s.source.teamIds = [id] := by
    rw [hsource]
    rfl
  rw [← hsource] at hreport ⊢
  have hcheck : Run.check id s = .ok report { s with
      journal := (s.source.checkNotice? id).toList ++ s.journal } := by
    unfold Run.check
    rw [Run.get_bind_apply, hreport]
    cases s.source.checkNotice? id <;> rfl
  unfold reports
  rw [Run.get_bind_apply, hteams]
  simp only [List.isEmpty_nil, if_true, List.mapM_cons, List.mapM_nil, Run.bind_apply, hcheck]
  rfl

/-- The check of a new project prints the report on its team. -/
theorem check_withTeam (empty : tree.IsEmptyFolder folder) (accepted : Text.isIdentifier id)
    {report : CheckReport} (hreport : (starterSource id).check id = .ok report) :
    let checked : Console := {
      tree := withTeam tree folder id
      folder
      out := String.join ((reportLines report).map (· ++ "\n"))
      journal := ((starterSource id).checkNotice? id).toList }
    check [] false { tree := withTeam tree folder id, folder } =
      if report.ok then .ok () checked else .error (.exit 1) checked := by
  obtain ⟨t, hdone, hjournal⟩ : ∃ t : System,
      reports [] { source := starterSource id, shelf := some (Source.empty true) } =
        .ok [report] t ∧ t.journal = ((starterSource id).checkNotice? id).toList :=
    ⟨_, reports_apply rfl hreport, List.append_nil _⟩
  have hreports : inProject (reports []) { tree := withTeam tree folder id, folder } =
      .ok (.ok [report]) {
        tree := withTeam tree folder id
        folder
        journal := t.journal ++ [] } :=
    inProject_apply (find_withTeam empty) (openProject_apply empty accepted) hdone
  rw [List.append_nil, hjournal] at hreports
  unfold check
  rw [shell_bind_apply hreports]
  simp only [List.flatMap_cons, List.flatMap_nil, List.append_nil, Bool.false_eq_true, if_false]
  rw [shell_bind_apply (forM_say_apply ..)]
  simp only [String.empty_append, List.all_cons, List.all_nil, Bool.and_true]
  cases report.ok <;> rfl

/-! ## From the start to the check -/

/-- A project is laid out in an empty folder with a team, and then checked: the check reports on the
team, and changes no file. -/
theorem run_check_of_init (empty : tree.IsEmptyFolder folder) (accepted : Text.isIdentifier id)
    {report : CheckReport} (hreport : (starterSource id).check id = .ok report) :
    let begun := run tree folder ["init", "--team", id]
    begun.status = 0 ∧ run begun.tree folder ["check"] =
      ⟨if report.ok then 0 else 1, String.join ((reportLines report).map (· ++ "\n")), "", none,
        begun.tree, ((starterSource id).checkNotice? id).toList⟩ := by
  obtain ⟨out, hinit⟩ := init_apply empty accepted
  have hbegun : run tree folder ["init", "--team", id] =
      ⟨0, out, "", none, withTeam tree folder id, []⟩ := by
    simp [run, Command.parse?, teamOption?, perform, EStateM.run, hinit]
  dsimp only
  rw [hbegun]
  refine ⟨rfl, ?_⟩
  simp only [run, Command.parse?, valuesAndFlag?, Option.map_some, perform, EStateM.run,
    check_withTeam empty accepted hreport]
  cases report.ok <;> rfl

/-- A project that is laid out in an empty folder with a team, of any id but that of the built-in
document, passes its check, which changes no file. Both commands begin by setting up the log; the
tree leaves out its file, and the notes leave out what is only written there. -/
theorem check_of_init (empty : tree.IsEmptyFolder folder) (accepted : Text.isIdentifier id)
    (other : id ≠ "default") :
    let begun := run tree folder ["init", "--team", id]
    begun.status = 0 ∧
      run begun.tree folder ["check"] = ⟨0, soundLine id ++ "\n", "", none, begun.tree, []⟩ := by
  obtain ⟨hreport, hnotice⟩ := check_starter other
  obtain ⟨hbegun, hchecked⟩ := run_check_of_init empty accepted hreport
  refine ⟨hbegun, ?_⟩
  rw [hchecked, hnotice, reportLines_sound]
  simp [CheckReport.ok]

/-- A tree with one folder, which is empty. -/
def oneFolder : Tree where
  entries := [(["site"], .folder)]

theorem check_of_init_crew :
    (oneFolder.IsEmptyFolder ["site"] ∧ Text.isIdentifier "crew" ∧ "crew" ≠ "default") ∧
      let begun := run oneFolder ["site"] ["init", "--team", "crew"]
      begun.status = 0 ∧ run begun.tree ["site"] ["check"] =
        ⟨0, "OK   crew (default -> crew)\n", "", none, begun.tree, []⟩ :=
  ⟨by decide +kernel, check_of_init (by decide +kernel) (by decide +kernel) (by decide +kernel)⟩

/-- A team under the id of the built-in document stands in front of it, and so it extends itself:
the check refuses what was laid out. -/
theorem check_of_init_default :
    oneFolder.IsEmptyFolder ["site"] ∧ Text.isIdentifier "default" ∧
      let begun := run oneFolder ["site"] ["init", "--team", "default"]
      let checked := run begun.tree ["site"] ["check"]
      begun.status = 0 ∧ checked.status = 1 ∧ checked.out = "FAIL default\n" ++
        "  error [circular_extends] circular extends chain: default -> default\n" := by
  have hempty : oneFolder.IsEmptyFolder ["site"] := by decide +kernel
  have hreport : (starterSource "default").check "default" = .ok {
      team := "default"
      resolutionIssues := [⟨"default", .circularExtension ["default", "default"]⟩] } := rfl
  obtain ⟨hbegun, hchecked⟩ := run_check_of_init hempty (by decide +kernel) hreport
  dsimp only
  refine ⟨hempty, by decide +kernel, hbegun, ?_, ?_⟩
  · rw [hchecked]
    rfl
  · rw [hchecked]
    decide +kernel

end Stageflow
