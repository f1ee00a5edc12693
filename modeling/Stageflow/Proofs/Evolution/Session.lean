import Stageflow.Proofs.Compiled
import Stageflow.Proofs.Evolution.Cascade
import Stageflow.System.Session

/-!
# How sessions evolve a system

Every operation of a session takes the view of a system along steps, on the terms that the operation
is admitted on. A property of views that steps preserve therefore holds after every session.
-/

namespace Stageflow

variable {terms : Terms} {s₀ s : System}

/-! ## Documents -/

/-- What holds of all documents of a source, and of one that is stored, holds of all then. -/
theorem Source.forall_document?_putDocument {P : String → TeamDocument → Prop} {source : Source}
    {document : TeamDocument} (hdocument : P document.id document)
    (h : ∀ team found, source.document? team = some found → P team found) (team : String)
    (found : TeamDocument) (hfound : (source.putDocument document).document? team = some found) :
    P team found := by
  by_cases hteam : team = document.id
  · subst hteam
    obtain rfl : document = found := by simpa [Source.putDocument, Source.document?] using hfound
    exact hdocument
  · refine h team found ?_
    simpa [Source.putDocument, Source.document?, Table.get?_put_of_ne hteam] using hfound

namespace Run

theorem keyed_putDocument {source : Source} (h : source.Keyed) (document : TeamDocument) :
    (source.putDocument document).Keyed :=
  Source.forall_document?_putDocument rfl h

theorem sound_edit {change : Source → Source} (h : s.Sound)
    (hchange : ∀ source : Source, source.Keyed → (change source).Keyed) :
    (s.edit change).Sound := by
  unfold System.edit
  split
  · exact ⟨h.items, h.source⟩
  · exact ⟨h.items, hchange _ h.source⟩

theorem view_edit (change : Source → Source) (taken : List Taken) :
    (s.edit change).view taken = s.view taken := by
  unfold System.edit
  split <;> rfl

/-- A change of the documents is out of view. -/
theorem evolves_edit (h : Evolves terms s₀ s) {change : Source → Source}
    (hchange : ∀ source : Source, source.Keyed → (change source).Keyed) :
    Evolves terms s₀ (s.edit change) where
  sound := sound_edit h.sound hchange
  clock := (congrArg View.clock (view_edit change [])).trans h.clock
  steps taken := (view_edit change taken).symm ▸ h.steps taken

theorem keeps_storeDocument {document : TeamDocument} {version : Int} :
    Keeps (Evolves terms s₀) (storeDocument document version) :=
  .modify fun _ hs => (evolves_edit hs fun _ h => keyed_putDocument h document).unseen
    (fun _ => rfl) rfl

theorem keeps_putDocument {raw : Json} : Keeps (Evolves terms s₀) (putDocument raw) :=
  .bind .ofReading fun _ => .bind .get fun _ => .bind keeps_storeDocument fun _ => .pure

theorem keeps_saveDocument {raw : Json} {expected : Int} :
    Keeps (Evolves terms s₀) (saveDocument raw expected) := by
  refine .bind .ofReading fun document => .bind .get fun s => ?_
  dsimp only
  split
  · exact .raise
  · exact .bind keeps_storeDocument fun _ => .pure

theorem keeps_putFragment {name : String} {fragment : Json} :
    Keeps (Evolves terms s₀) (putFragment name fragment) :=
  .modify fun _ hs => evolves_edit hs fun _ h => h

/-! ## Activation -/

theorem team_resolve {source : Source} {document : TeamDocument} {merged : MergedDocument}
    (h : source.resolve document = .ok merged) : merged.team = document.id := by
  obtain ⟨documents, -, -, rfl⟩ := source.resolve_eq_ok h
  rfl

theorem leads_resolve (hs : Evolves terms s₀ s) (document : TeamDocument) :
    Leads (Evolves terms s₀) (resolve document) s fun merged t =>
      t = s ∧ merged.team = document.id := by
  simp only [resolve, leads_bind, leads_get]
  split
  · rename_i merged hmerged
    exact ⟨rfl, team_resolve hmerged⟩
  · exact keeps_note rfl s hs
  · exact hs

theorem leads_compile (hs : Evolves terms s₀ s) (merged : MergedDocument) (version : Int) :
    Leads (Evolves terms s₀) (compile merged version) s fun w t =>
      Evolves terms s₀ t ∧ t.registry = s.registry ∧ merged.compile version = .ok w := by
  unfold compile
  split
  · rename_i w hw
    simp only [leads_bind, leads_pure]
    rw [Leads, forM_note]
    refine ⟨hs.unseen (fun taken => ?_) rfl, rfl, hw⟩
    simp [System.view, System.trace, System.isWired, Notice.isTraced]
  · exact leads_bind.2 (keeps_note rfl s hs)
  · exact hs

theorem keeps_activate {team : String} : Keeps (Evolves terms s₀) (activate team) := by
  intro s hs
  simp only [activate, draft, issue, leads_bind, leads_get]
  cases hdocument : s.source.document? team with
  | none => exact hs
  | some document =>
    have hid : document.id = team := hs.sound.source team document hdocument
    refine (leads_resolve hs document).mono ?_
    rintro merged t ⟨rfl, hmerged⟩
    refine (leads_compile hs merged _).mono ?_
    rintro w t' ⟨ht, hregistry, hcompiled⟩
    obtain ⟨hteam, hversion⟩ := compile_names hcompiled
    simp only [leads_modify, leads_pure]
    refine ht.step ⟨ht.sound.items, ht.sound.source⟩ rfl fun taken =>
      .published ?_ (hversion.symm ▸ hcompiled)
    have hw : w.team = team := (hteam.trans hmerged).trans hid
    simp [System.view, hversion, hregistry, hw]

theorem keeps_activateTeams {teams : List String} :
    Keeps (Evolves terms s₀) (activateTeams teams) := by
  induction teams with
  | nil => exact .pure
  | cons team rest ih =>
    refine .bind (.attempt keeps_activate) fun result => ?_
    split
    · exact .bind ih fun _ => .pure
    · split
      · exact .bind (keeps_note rfl) fun _ => .bind ih fun _ => .pure
      · exact .raise

/-! ## Checking and closing down -/

theorem keeps_check {team : String} : Keeps (Evolves terms s₀) (check team) := by
  refine .bind .get fun s => .bind ?_ fun _ => .ofReading
  unfold Source.checkNotice?
  split
  · exact .pure
  · split
    · exact keeps_note rfl
    · exact .pure

theorem keeps_startEvaluator : Keeps (Evolves terms s₀) startEvaluator := by
  refine .bind .get fun s => ?_
  split
  · exact keeps_note rfl
  · exact keeps_modify (fun _ _ => rfl) fun _ => rfl

theorem keeps_stopEvaluator : Keeps (Evolves terms s₀) stopEvaluator :=
  keeps_modify (fun _ _ => rfl) fun _ => rfl

theorem keeps_disarm {item : String} {rule : Option String} :
    Keeps (Evolves terms s₀) (disarm item rule) := by
  refine .get_bind fun s hs => ?_
  simp only [setWatches, changeAutomation, leads_bind, leads_modify]
  rw [Leads, forM_note]
  refine hs.step ⟨hs.sound.items, hs.sound.source⟩ rfl fun taken => ?_
  have hended : ∀ notice ∈ ((s.automation.watches.select fun key _ =>
      Watches.isOf item rule key).values.map Notice.disarmed), notice.isTraced := by
    simp [Notice.isTraced]
  have hview := view_logAll hended
    { s with
      automation := { s.automation with
        watches := s.automation.watches.select fun key _ => !Watches.isOf item rule key } } taken
  exact hview.symm ▸ Step.disarmed item rule

end Run

/-! ## Operations -/

namespace Operation

open Run (Keeps Leads leads_bind leads_get leads_modify leads_ofReading leads_pure)

/-- Whether an operation leaves events and times to the system, and does not set the clock back. -/
def isTimely : Operation → Bool
  | .ingest signal => signal.time.isNone
  | .deliver .. | .publish _ => false
  | .tick time | .checkThresholds time .. => time.isNone
  | .advance seconds =>
    match Span.ofJson seconds with
    | .ok span => 0 ≤ span
    | .error _ => true
  | _ => true

/-- The item that an operation binds to another version. -/
def migrated? : Operation → Option String
  | .migrate item _ => some item
  | _ => none

/-- Whether an operation forges no move. -/
def isUnforged : Operation → Bool
  | .deliver (.moved _) _ | .publish (.moved _) => false
  | _ => true

/-- Whether an operation goes by some terms. -/
structure Admitted (terms : Terms) (op : Operation) : Prop where
  timely : terms.timely → op.isTimely
  kept : ∀ id ∈ op.migrated?, ¬ terms.kept id

open Run in
/-- Every operation but a move of the clock and a tick lets a system evolve. -/
theorem keeps_perform {op : Operation} (h : op.Admitted terms)
    (hadvance : ∀ seconds, op ≠ .advance seconds) (htick : ∀ time, op ≠ .tick time) :
    Keeps (Evolves terms s₀) op.perform := by
  have ha (depth : Int) : AnnouncesAt terms s₀.settings.maxCascadeDepth depth Run.publish :=
    announcesAt_publish _ depth
  cases op with
  | create request => exact .bind (keeps_createItem (ha _ _ rfl)) fun _ => .pure
  | move item target actor => exact .bind (keeps_moveItem (ha _ _ rfl)) fun _ => .pure
  | signOff item stage role approver => exact .bind keeps_signOff fun _ => .pure
  | setCriterion item criterion satisfied => exact .bind keeps_setCriterion fun _ => .pure
  | migrate item version => exact .bind (keeps_migrate (h.kept item rfl)) fun _ => .pure
  | choices item => exact .bind keeps_choicesOf fun _ => .pure
  | gate item stage => exact .bind keeps_gateOf fun _ => .pure
  | ingest signal =>
    refine keeps_ingest (fun ht => ?_) fun _ => ha _
    have htime : signal.time = none := by simpa [isTimely] using h.timely ht
    simp [System.Genuine, View.Genuine, htime]
  | deliver event subscriber =>
    exact keeps_deliver (fun ht => by simpa [isTimely] using h.timely ht) fun _ => ha _
  | publish event => exact keeps_publish fun ht => by simpa [isTimely] using h.timely ht
  | tick time => exact absurd rfl (htick time)
  | disarm item rule => exact .bind keeps_disarm fun _ => .pure
  | act context actions => exact .bind (keeps_runActions (ha _ _ rfl)) fun _ => .pure
  | checkThresholds time items depth =>
    refine .bind (keeps_checkThresholds (fun ht => ?_) fun _ => ha _) fun _ => .pure
    have htime : time = none := by simpa [isTimely] using h.timely ht
    simp [htime]
  | advance seconds => exact absurd rfl (hadvance seconds)
  | putDocument raw => exact .bind keeps_putDocument fun _ => .pure
  | saveDocument raw expected => exact .bind keeps_saveDocument fun _ => .pure
  | putFragment name fragment => exact keeps_putFragment
  | activate team => exact .bind keeps_activate fun _ => .pure
  | activateAll =>
    exact .bind (.bind .get fun _ => keeps_activateTeams) fun _ => .pure
  | check team => exact .bind keeps_check fun _ => .pure
  | startEvaluator => exact keeps_startEvaluator
  | stopEvaluator => exact keeps_stopEvaluator

/-- Moving the clock is one step. -/
theorem reaches_advance {seconds : Json} (h : (advance seconds).Admitted terms) (sound : s.Sound) :
    Reaches terms s ((advance seconds).perform.after s) := by
  refine Leads.after (I := Reaches terms s) ?_
  have hstill : Reaches terms s s := .refl sound
  simp only [perform, Run.advance, leads_bind, leads_get, leads_ofReading]
  cases hspan : Span.ofJson seconds with
  | error d => exact hstill
  | ok span =>
    cases hclock : s.clock.add span with
    | error d =>
      have hbind : (Except.ok span >>= s.clock.add) = .error d := hclock
      simpa only [hbind] using hstill
    | ok clock =>
      have hclock' : clock = s.clock.shift span := Instant.add_eq_ok hclock
      have hbind : (Except.ok span >>= s.clock.add) = .ok clock := hclock
      simp only [hbind, leads_modify, leads_pure]
      refine ⟨⟨sound.items, sound.source⟩, .single (.elapsed fun ht => ?_)⟩
      have hspan : (0 : Int) ≤ span := by simpa [isTimely, hspan] using h.timely ht
      simp only [System.view, hclock', Instant.micros_shift]
      omega

open Run in
theorem reaches_tick {time : Option Instant} (h : (tick time).Admitted terms) (sound : s.Sound) :
    Reaches terms s ((tick time).perform.after s) := by
  refine Leads.after (I := Reaches terms s) ?_
  simp only [perform, leads_bind, leads_pure]
  refine leads_tick sound (fun ht => ?_) fun depth => announcesAt_publish _ depth
  have htime : time = none := by simpa [isTimely] using h.timely ht
  simp [htime]

/-- Every operation takes a system along steps. -/
theorem reaches_perform {op : Operation} (h : op.Admitted terms) (sound : s.Sound) :
    Reaches terms s (op.perform.after s) := by
  obtain ⟨seconds, rfl⟩ | hadvance := Classical.em (∃ seconds, op = .advance seconds)
  · exact reaches_advance h sound
  obtain ⟨time, rfl⟩ | htick := Classical.em (∃ time, op = .tick time)
  · exact reaches_tick h sound
  have hkeeps : Keeps (Evolves terms s) op.perform :=
    keeps_perform h (fun seconds heq => hadvance ⟨seconds, heq⟩) fun time heq => htick ⟨time, heq⟩
  exact (hkeeps.after (.refl sound)).reaches

end Operation

/-- A session takes a system along steps, on the terms of its operations. -/
theorem reaches_through {ops : List Operation} (h : ∀ op ∈ ops, op.Admitted terms)
    (sound : s.Sound) : Reaches terms s (s.through ops) := by
  induction ops generalizing s with
  | nil => exact .refl sound
  | cons op ops ih =>
    have hop := Operation.reaches_perform (h op (by simp)) sound
    exact hop.trans (ih (fun op hop => h op (by simp [hop])) hop.sound)

/-- A system in which nothing has happened to items and watches yet. -/
structure System.New (s : System) : Prop where
  items : s.items = []
  watches : s.automation.watches = []
  trace : s.trace = []
  source : s.source.Keyed

theorem System.New.sound {s : System} (new : s.New) : s.Sound where
  items := by simp [new.items]
  source := new.source

/-- What steps preserve holds after every session on their terms. -/
theorem invariant_through (terms : Terms) {P : View → Prop}
    (step : ∀ v v', P v → Step terms v v' → P v') {s : System} (sound : s.Sound)
    (start : P (s.view [])) {ops : List Operation} (h : ∀ op ∈ ops, op.Admitted terms) :
    P ((s.through ops).view []) :=
  (reaches_through h sound).steps.invariant step start

/-- Every session takes a system along steps. -/
theorem reaches_loose (sound : s.Sound) (ops : List Operation) :
    Reaches .loose s (s.through ops) :=
  reaches_through (fun _ _ => ⟨False.elim, fun _ _ => not_false⟩) sound

/-- What steps preserve holds after every session, if nothing is asked of the terms. -/
theorem invariant_loose {P : View → Prop} (step : ∀ v v', P v → Step .loose v v' → P v')
    (sound : s.Sound) (start : P (s.view [])) (ops : List Operation) :
    P ((s.through ops).view []) :=
  (reaches_loose sound ops).steps.invariant step start

/-! ## A sample team -/

theorem System.new_default (settings : Settings) : ({ settings } : System).New :=
  ⟨rfl, rfl, rfl, fun _ _ h => by cases h⟩

/-- The sections of a team whose items wander between the statuses of a stage "work", and end in the
stage "done". A level asks for a sign-off before "work" is left. -/
def sampleSections (rules metrics : List Json) : Sections where
  stages := [
    .obj [("id", .str "work"), ("enforcement", .str "hard"),
      ("exit_criteria", .arr [.str "tested"])],
    .obj [("id", .str "done"), ("terminal", .bool true)]]
  statuses :=
    ["A", "B", "C", "D"].map (fun id => .obj [("id", .str id), ("stage_id", .str "work")]) ++
      [.obj [("id", .str "Z"), ("stage_id", .str "done")]]
  transitions := [
    .obj [("from", .str "*"), ("to", .arr (["A", "B", "C", "D", "Z"].map .str)),
      ("except", .arr [.str "Z"])]]
  complexity := [
    .obj [("id", .str "plain"),
      ("require_approval", .arr [.obj [("stage", .str "work"), ("roles", .arr [.str "lead"])]])]]
  automation := rules
  metrics

/-- The raw document of the sample team. -/
def sampleDocument (rules metrics : List Json) : Json :=
  .obj (("team", .obj [("id", .str "t")]) ::
    Section.all.map fun sect => (sect.name, .arr ((sampleSections rules metrics).of sect)))

/-- The sample team with some rules and limits is set up. -/
def sampleSession (rules : List Json) (metrics : List Json := []) : List Operation :=
  [.putDocument (sampleDocument rules metrics), .activate "t"]

/-- A rule that moves an item on as soon as it enters a status. -/
def onwardRule (status onward : String) : Json :=
  .obj [("id", .str ("on-" ++ status)), ("trigger", .str "transition"), ("to", .str status),
    ("actions", .arr [.obj [("type", .str "auto_transition"), ("to", .str onward)]])]

/-- A rule that moves an item on when it has stayed in a status for an hour. -/
def waitingRule (status onward : String) : Json :=
  .obj [("id", .str ("from-" ++ status)), ("trigger", .str "transition"), ("to", .str status),
    ("duration", .str "1h"),
    ("actions", .arr [.obj [("type", .str "auto_transition"), ("to", .str onward)]])]

end Stageflow
