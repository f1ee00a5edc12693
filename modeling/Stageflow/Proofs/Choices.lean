import Stageflow.Proofs.NextRequests

/-!
# Choices and requests

The choices of an item are listed by one computation and its moves are decided by another. Both
follow the table of moves, the gate of the stage that is left, and its exit criteria, so that a
choice tells what the request for it comes to.

## Main statements

* `Workflow.decide_choice` — what a request for a choice is decided to.
* `choices_foretell` — a request for a status comes to what the choices say.
* `ready_iff_granted` — when a choice is reported ready.
-/

namespace Stageflow

open Run

variable {w : Workflow} {item : Item} {source : Stage} {target : String}

/-! ## Names of statuses -/

/-- The name for the next stage is no status of a compiled workflow. -/
theorem nextStage_is_no_status {document : MergedDocument} {version : Int} {w : Workflow}
    (compiled : document.compile version = .ok w) : w.status? nextStage = none := by
  obtain ⟨d, reads, -, hstatuses, -⟩ := compile_wellFormed compiled
  rw [Workflow.status?, List.find?_eq_none]
  intro status hstatus
  rw [List.mem_reverse, hstatuses] at hstatus
  obtain ⟨hlength, hread⟩ := List.forall₂_iff_get.1 reads.statuses
  obtain ⟨i, rfl⟩ := List.mem_iff_get.1 hstatus
  have hidentifier := Status.isIdentifier_id (hread i (lt_of_lt_of_eq i.2 hlength.symm) i.2)
  intro hnext
  rw [of_decide_eq_true hnext] at hidentifier
  exact absurd hidentifier (by decide +kernel)

/-! ## Deciding a request for a choice -/

/-- Why the request for a choice is refused according to the choice, if it is: sign-offs are
missing, or the stage that is left is hard and has unmet criteria. -/
def Workflow.Choice.verdict (choice : Workflow.Choice) (item : String) (source : Stage) :
    Option Fault :=
  if choice.missingRoles ≠ [] then some (.approvalPending item source.id choice.missingRoles)
  else if choice.unmetCriteria ≠ [] ∧ source.enforcement = .hard then
    some (.criteriaUnmet item source.id choice.unmetCriteria)
  else none

/-- A choice says which sign-offs are missing, or which criteria are unmet in a hard stage, or that
nothing stands against it. -/
theorem Workflow.Choice.verdict_cases (choice : Workflow.Choice) (item : String) (source : Stage) :
    (choice.missingRoles ≠ [] ∧
      choice.verdict item source =
        some (.approvalPending item source.id choice.missingRoles)) ∨
    (choice.missingRoles = [] ∧ choice.unmetCriteria ≠ [] ∧ source.enforcement = .hard ∧
      choice.verdict item source =
        some (.criteriaUnmet item source.id choice.unmetCriteria)) ∨
    (choice.missingRoles = [] ∧ (choice.unmetCriteria = [] ∨ source.enforcement ≠ .hard) ∧
      choice.verdict item source = none) := by
  unfold verdict
  by_cases hroles : choice.missingRoles = []
  · by_cases hcriteria : choice.unmetCriteria ≠ [] ∧ source.enforcement = .hard
    · exact .inr (.inl ⟨hroles, hcriteria.1, hcriteria.2, by simp [hroles, hcriteria]⟩)
    · refine .inr (.inr ⟨hroles, ?_, by simp [hroles, hcriteria]⟩)
      simpa [imp_iff_not_or] using hcriteria
  · exact .inl ⟨hroles, by simp [hroles]⟩

namespace Workflow

variable {choice : Choice} {choices : List Choice}

/-- The choices are the destinations of the status. -/
theorem mem_choices (placed : w.stageOf item.status = .ok source)
    (h : w.choices item = .ok choices) :
    choice ∈ choices ↔
      ∃ target, w.allows item.status target ∧ w.choice item source target = .ok choice := by
  simp only [Workflow.choices, placed, Except.mapError, ok_bind] at h
  simp [mem_of_mapM h, allows, Edges.allows, destinations]

/-- A choice leads to the stage of its target. It says that something is missing only if that is
another stage than the one that is left. -/
theorem choice_ok (h : w.choice item source target = .ok choice) :
    choice.target = target ∧ ∃ goal, w.stageOf target = .ok goal ∧
      if source.id = goal.id then choice.missingRoles = [] ∧ choice.unmetCriteria = []
      else choice.missingRoles = (w.gate item source.id).missing ∧
        choice.unmetCriteria = item.unmet source.exitCriteria := by
  unfold Workflow.choice at h
  obtain ⟨goal, hgoal, h⟩ := bind_eq_ok.1 h
  rw [mapError_eq_ok] at hgoal
  split at h
  · rename_i hsame
    cases h
    exact ⟨rfl, goal, hgoal, by simp [hsame]⟩
  · rename_i hother
    cases h
    exact ⟨rfl, goal, hgoal, by simp [Ne.symm hother]⟩

/-- The targets of the choices are the statuses that the table leads to. -/
theorem allows_iff_choice (placed : w.stageOf item.status = .ok source)
    (h : w.choices item = .ok choices) :
    w.allows item.status target ↔ ∃ choice ∈ choices, choice.target = target := by
  constructor
  · intro hallowed
    have hlisted := h
    simp only [Workflow.choices, placed, Except.mapError, ok_bind] at hlisted
    have hmem : target ∈ w.destinations item.status := by
      simpa [allows, Edges.allows, destinations] using hallowed
    obtain ⟨choice, hmade, -⟩ :=
      mapM_eq_ok.1 ⟨choices, hlisted, fun _ _ => trivial⟩ target hmem
    exact ⟨choice, (mem_choices placed h).2 ⟨target, hallowed, hmade⟩, (choice_ok hmade).1⟩
  · rintro ⟨choice, hchoice, rfl⟩
    obtain ⟨target, hallowed, hmade⟩ := (mem_choices placed h).1 hchoice
    rwa [(choice_ok hmade).1]

/-- Something has to be a status to be moved to, and the table has to lead there. -/
theorem decide_of_not_allows (named : target ≠ nextStage) (h : ¬ w.allows item.status target) :
    ∃ reason, w.decide item (.str target) =
      .error (.illegal item.id item.status target reason) := by
  have hroute : w.route item (.str target) = w.routeTo item target := by simp [route, named]
  unfold decide
  rw [hroute, routeTo]
  by_cases hunknown : (w.status? target).isNone
  · rw [if_pos hunknown]
    exact ⟨_, rfl⟩
  · rw [if_neg hunknown, if_neg h]
    exact ⟨_, rfl⟩

/-- What stands against leaving a stage is what a choice of another stage says. -/
theorem checkLeave_eq_verdict (hroles : choice.missingRoles = (w.gate item source.id).missing)
    (hcriteria : choice.unmetCriteria = item.unmet source.exitCriteria) :
    w.checkLeave item source =
      match choice.verdict item.id source with
      | some fault => .error fault
      | none => .ok () := by
  unfold checkLeave Choice.verdict
  rw [hroles, hcriteria]
  by_cases hmissing : (w.gate item source.id).missing = []
  · by_cases hunmet : item.unmet source.exitCriteria = [] <;>
      by_cases hhard : source.enforcement = .hard <;> simp [Gate.isOpen, hmissing, hunmet, hhard]
  · simp [Gate.isOpen, hmissing]

/-- A request for a choice is granted, or refused for what the choice says. -/
theorem decide_choice
    (placed : w.stageOf item.status = .ok source) (named : target ≠ nextStage)
    (allowed : w.allows item.status target) (h : w.choice item source target = .ok choice) :
    match choice.verdict item.id source with
    | some fault => w.decide item (.str target) = .error fault
    | none => ∃ move, w.decide item (.str target) = .ok move ∧ move.route.target = target := by
  obtain ⟨-, goal, hgoal, hmissing⟩ := choice_ok h
  have hknown : (w.status? target).isNone = false := by
    simpa using status?_isSome_of_stageOf hgoal
  have hroute : w.route item (.str target) = .ok ⟨target, []⟩ := by
    simp [route, named, routeTo, hknown, allowed]
  have hdecide : w.decide item (.str target) =
      if source.id = goal.id then .ok ⟨⟨target, []⟩, source, goal, []⟩
      else w.checkLeave item source >>= fun _ =>
        .ok ⟨⟨target, []⟩, source, goal, moveWarnings item source goal⟩ := by
    simp only [decide, hroute, placed, hgoal, Except.mapError, ok_bind]
    rfl
  rw [hdecide]
  by_cases hsame : source.id = goal.id
  · obtain ⟨hroles, hcriteria⟩ := (if_pos hsame).mp hmissing
    simp [Choice.verdict, hroles, hcriteria, hsame]
  · obtain ⟨hroles, hcriteria⟩ := (if_neg hsame).mp hmissing
    rw [if_neg hsame, checkLeave_eq_verdict hroles hcriteria]
    cases choice.verdict item.id source with
    | some fault => rfl
    | none => exact ⟨_, rfl, rfl⟩

end Workflow

/-! ## Requests -/

namespace Run

variable {α : Type} {s : System} {id : String} {actor : Actor}

/-- Whether a computation fails for a reason. -/
def FailsFor (action : Run α) (s : System) (fault : Fault) : Prop :=
  ∃ t, action s = .error (.raised fault) t

/-- Whether a request moves its item to a status. -/
def Grants (request : Run Passage) (s : System) (target : String) : Prop :=
  ∃ passage t, request s = .ok passage t ∧ passage.move.route.target = target

/-- A computation ends in one way only. -/
theorem FailsFor.iff {action : Run α} {fault other : Fault} (h : FailsFor action s fault) :
    FailsFor action s other ↔ other = fault := by
  obtain ⟨t, h⟩ := h
  constructor
  · rintro ⟨u, hother⟩
    cases h.symm.trans hother
    rfl
  · rintro rfl
    exact ⟨t, h⟩

theorem FailsFor.not_grants {request : Run Passage} {fault : Fault} {target : String}
    (h : FailsFor request s fault) : ¬ Grants request s target := by
  rintro ⟨passage, u, hgranted, -⟩
  obtain ⟨t, h⟩ := h
  cases h.symm.trans hgranted

theorem Grants.not_fails {request : Run Passage} {fault : Fault} {target : String}
    (h : Grants request s target) : ¬ FailsFor request s fault := fun hfails =>
  hfails.not_grants h

/-- Whether the request for a choice comes to what the choice says. -/
def Obeys (request : Run Passage) (s : System) (choice : Workflow.Choice) (item : String)
    (source : Stage) : Prop :=
  match choice.verdict item source with
  | some fault => FailsFor request s fault
  | none => Grants request s choice.target

namespace Obeys

variable {request : Run Passage} {choice : Workflow.Choice}

theorem not_illegal (h : Obeys request s choice id source) (item status target : String)
    (reason : Option String) : ¬ FailsFor request s (.illegal item status target reason) := by
  unfold Obeys at h
  obtain ⟨-, hverdict⟩ | ⟨-, -, -, hverdict⟩ | ⟨-, -, hverdict⟩ := choice.verdict_cases id source
  all_goals rw [hverdict] at h
  · simp [h.iff]
  · simp [h.iff]
  · exact h.not_fails

/-- A request is refused for missing sign-offs exactly if the choice says that some are missing. -/
theorem pending_iff (h : Obeys request s choice id source) (item stage : String)
    (roles : List String) : FailsFor request s (.approvalPending item stage roles) ↔
      choice.missingRoles ≠ [] ∧ item = id ∧ stage = source.id ∧ roles = choice.missingRoles := by
  unfold Obeys at h
  obtain ⟨hroles, hverdict⟩ | ⟨hroles, -, -, hverdict⟩ | ⟨hroles, -, hverdict⟩ :=
    choice.verdict_cases id source
  all_goals rw [hverdict] at h
  · simp [h.iff, hroles]
  · simp [h.iff, hroles]
  · simp [h.not_fails, hroles]

/-- A request is refused for unmet criteria exactly if the choice says that some are unmet and no
sign-off is missing, and the stage that is left is hard. -/
theorem unmet_iff (h : Obeys request s choice id source) (item stage : String)
    (criteria : List String) : FailsFor request s (.criteriaUnmet item stage criteria) ↔
      choice.missingRoles = [] ∧ choice.unmetCriteria ≠ [] ∧ source.enforcement = .hard ∧
        item = id ∧ stage = source.id ∧ criteria = choice.unmetCriteria := by
  unfold Obeys at h
  obtain ⟨hroles, hverdict⟩ | ⟨hroles, hcriteria, hhard, hverdict⟩ | ⟨-, hnothing, hverdict⟩ :=
    choice.verdict_cases id source
  all_goals rw [hverdict] at h
  · simp [h.iff, hroles]
  · simp [h.iff, hroles, hcriteria, hhard]
  · simp only [h.not_fails, false_iff]
    rintro ⟨-, hcriteria, hhard, -⟩
    exact hnothing.elim hcriteria fun hsoft => hsoft hhard

theorem grants_iff (h : Obeys request s choice id source) : Grants request s choice.target ↔
    choice.missingRoles = [] ∧ (choice.unmetCriteria = [] ∨ source.enforcement ≠ .hard) := by
  unfold Obeys at h
  obtain ⟨hroles, hverdict⟩ | ⟨-, hcriteria, hhard, hverdict⟩ | ⟨hroles, hnothing, hverdict⟩ :=
    choice.verdict_cases id source
  all_goals rw [hverdict] at h
  · simp [h.not_grants, hroles]
  · simp [h.not_grants, hcriteria, hhard]
  · exact iff_of_true h ⟨hroles, hnothing⟩

end Obeys

/-- Whether nobody gets in the way of a request: nobody holds the lock of the item, and no rival
waits for the item to be loaded. -/
structure Undisturbed (s : System) (id : String) : Prop where
  free : id ∉ s.held
  alone : s.rival ≠ some id

/-- An item that is loaded while no rival waits for it is left as it is. -/
theorem overtake_of_alone (alone : s.rival ≠ some id) : overtake s id item = s := if_neg alone

theorem choicesOf_of_alone (alone : s.rival ≠ some id) (stored : s.items.get? id = some item)
    (version : s.registry.version item.team item.workflowVersion = .ok w)
    {choices : List Workflow.Choice} (h : w.choices item = .ok choices) :
    choicesOf id s = .ok choices s := by
  unfold choicesOf
  rw [bind_apply, loadItem_apply, stored]
  dsimp only
  rw [overtake_of_alone alone, workflowOf_bind_apply, version]
  dsimp only
  rw [ofExcept_apply, h]

theorem choicesOf_unchanged {t : System} {choices : List Workflow.Choice}
    (alone : s.rival ≠ some id) (h : choicesOf id s = .ok choices t) : t = s := by
  unfold choicesOf at h
  rw [bind_apply, loadItem_apply] at h
  cases hitem : s.items.get? id with
  | none =>
    rw [hitem] at h
    cases h
  | some item =>
    rw [hitem] at h
    dsimp only at h
    rw [overtake_of_alone alone, workflowOf_bind_apply] at h
    split at h
    · rw [ofExcept_apply] at h
      split at h <;> cases h
      rfl
    · cases h

theorem choicesOf_of_succeeds {choices : List Workflow.Choice} (alone : s.rival ≠ some id)
    (h : (choicesOf id).succeeds s fun found _ => decide (found = choices)) :
    choicesOf id s = .ok choices s := by
  obtain ⟨found, t, hfound, hsame⟩ := succeeds_iff.1 h
  rwa [choicesOf_unchanged alone hfound, of_decide_eq_true hsame] at hfound

/-- No request gets the lock of its item, if the time to wait for one is out of range. -/
theorem moveItem_of_waitsTooLong {announce : Event → Run Unit} {request : Json}
    (h : s.settings.waitsTooLong) :
    FailsFor (moveItem announce id request actor) s .waitTooLong := by
  unfold moveItem
  refine ⟨s, ?_⟩
  rw [bind_apply, underLock_apply, if_pos h]

/-- While no action is running, an event is published and its publication comes to an end, if the
calls of subscribers can be waited for. -/
theorem publish_ok (idle : s.IsIdle) (inTime : s.settings.deliversTooLong = false) (event : Event) :
    ∃ t, Run.publish event s = .ok () t := by
  have hfails := failsLate_publish event s
  have hreturns := returns_publish event s idle
  unfold FailsBy at hfails
  unfold Ends at hreturns
  cases hpublish : Run.publish event s with
  | ok _ t => exact ⟨t, rfl⟩
  | error halt t =>
    rw [hpublish] at hfails hreturns
    cases halt with
    | raised fault => exact absurd hfails.2 (by simp [inTime])
    | hung => exact hreturns.elim

/-- An item that was loaded while no rival waited for it is written, once its move is decided. -/
theorem commitMove_of_decide (actor : Actor) (alone : s.rival ≠ some id) (keyed : item.id = id)
    (stored : s.items.get? id = some item)
    (version : s.registry.version item.team item.workflowVersion = .ok w) {request : Json}
    {move : Move} (decided : w.decide item request = .ok move) :
    ∃ passage t, commitMove id request actor s = .ok passage t ∧ passage.move = move ∧
      t.runner = s.runner ∧ t.settings = s.settings := by
  obtain rfl := keyed
  unfold commitMove
  rw [bind_apply, loadItem_apply, stored]
  dsimp only
  rw [overtake_of_alone alone, workflowOf_bind_apply, version]
  dsimp only
  rw [ofExcept_bind_apply, decided]
  dsimp only
  rw [get_bind_apply, bind_apply, writeItem_apply]
  simp only [Item.moveTo, stored, ne_eq, not_true_eq_false, if_false]
  exact ⟨_, _, rfl, rfl, rfl, rfl⟩

/-- A move that was decided is made, if nobody gets in the way. -/
theorem moveItem_of_decide_ok (idle : s.IsIdle) (inTime : s.settings.InTime)
    (undisturbed : Undisturbed s id) (keyed : item.id = id) (stored : s.items.get? id = some item)
    (version : s.registry.version item.team item.workflowVersion = .ok w) {request : Json}
    {move : Move} (decided : w.decide item request = .ok move) :
    ∃ passage t, moveItem Run.publish id request actor s = .ok passage t ∧
      passage.move = move := by
  obtain ⟨passage, u, hcommit, hmove, hrunner, hsettings⟩ := commitMove_of_decide
    (s := { s with held := id :: s.held }) actor undisturbed.alone keyed stored version decided
  have hidle : { u with held := u.held.erase id }.IsIdle := by
    rw [System.IsIdle, hrunner]
    exact idle
  obtain ⟨t, hpublish⟩ := publish_ok hidle (hsettings ▸ inTime.deliveries) (.moved passage.event)
  refine ⟨passage, t, ?_, hmove⟩
  unfold moveItem
  rw [bind_apply, underLock_apply]
  simp only [inTime.locks, undisturbed.free, Bool.false_eq_true, if_false, hcommit]
  rw [bind_apply, hpublish]
  rfl

/-- What the requests for a status come to, by the choices of the item: a status that is no choice
is refused as illegal, and a choice is refused or granted as it says. -/
theorem requests_of_choices (bound : (s.view []).Bound) (idle : s.IsIdle)
    (inTime : s.settings.InTime) (undisturbed : Undisturbed s id)
    (stored : s.items.get? id = some item) (actor : Actor) :
    ∃ choices w source, choicesOf id s = .ok choices s ∧
      s.registry.version item.team item.workflowVersion = .ok w ∧
      w.stageOf item.status = .ok source ∧ w.status? nextStage = none ∧
      (∀ target, target ≠ nextStage → (∀ choice ∈ choices, choice.target ≠ target) → ∃ reason,
        FailsFor (moveItem Run.publish id (.str target) actor) s
          (.illegal id item.status target reason)) ∧
      ∀ choice ∈ choices, Obeys (moveItem Run.publish id (.str choice.target) actor) s choice id
        source := by
  obtain rfl := bound.keyed id item stored
  obtain ⟨w, hw, has⟩ := bound.items item.id item stored
  have hfound : s.registry.version? item.team item.workflowVersion = some w := hw
  have hversion : s.registry.version item.team item.workflowVersion = .ok w := by
    rw [Registry.version, hfound]
  obtain ⟨document, -, hcompiled⟩ := bound.compiled _ _ w hfound
  have hnext := nextStage_is_no_status hcompiled
  obtain ⟨source, placed⟩ := has.placed
  obtain ⟨choices, hchoices⟩ := (compile_connected hcompiled).choices_ok has
  have hlisted := choicesOf_of_alone undisturbed.alone stored hversion hchoices
  refine ⟨choices, w, source, hlisted, hversion, placed, hnext, ?unlisted, ?listed⟩
  case unlisted =>
    intro target named hnone
    have hforbidden : ¬ w.allows item.status target := by
      intro hallowed
      obtain ⟨choice, hchoice, htarget⟩ := (Workflow.allows_iff_choice placed hchoices).1 hallowed
      exact hnone choice hchoice htarget
    obtain ⟨reason, hdecide⟩ := Workflow.decide_of_not_allows named hforbidden
    exact ⟨reason, moveItem_of_decide stored hversion inTime.locks undisturbed.free hdecide⟩
  case listed =>
    intro choice hchoice
    obtain ⟨target, hallowed, hmade⟩ := (Workflow.mem_choices placed hchoices).1 hchoice
    obtain ⟨rfl, goal, hgoal, -⟩ := Workflow.choice_ok hmade
    have named : choice.target ≠ nextStage := by
      intro heq
      have hstatus := Workflow.status?_isSome_of_stageOf hgoal
      simp [heq, hnext] at hstatus
    have hdecide := Workflow.decide_choice placed named hallowed hmade
    unfold Obeys
    cases hverdict : choice.verdict item.id source with
    | some fault =>
      rw [hverdict] at hdecide
      exact moveItem_of_decide stored hversion inTime.locks undisturbed.free hdecide
    | none =>
      rw [hverdict] at hdecide
      obtain ⟨move, hmove, htarget⟩ := hdecide
      obtain ⟨passage, t, hrequest, rfl⟩ := moveItem_of_decide_ok idle inTime undisturbed rfl
        stored hversion hmove
      exact ⟨passage, t, hrequest, htarget⟩

end Run

/-! ## Main results -/

/-- In every session, the choices of a stored item are exactly the statuses that a request is not
refused for as illegal, and each foretells what the request for it comes to: it is refused for the
missing sign-offs if there are any, else for the unmet criteria if there are any and the stage that
is left is hard, and else it is granted. Nobody is to get in the way, and the times to wait for a
lock and for subscribers are to be in range. -/
theorem choices_foretell {s : System} (new : s.New) (coherent : s.registry.Coherent)
    (compiled : s.registry.Compiled) (idle : s.IsIdle) (ops : List Operation) {id : String}
    {item : Item} (stored : (s.through ops).items.get? id = some item)
    (inTime : (s.through ops).settings.InTime)
    (undisturbed : Run.Undisturbed (s.through ops) id) (actor : Actor) :
    ∃ choices w source, Run.choicesOf id (s.through ops) = .ok choices (s.through ops) ∧
      (s.through ops).registry.version item.team item.workflowVersion = .ok w ∧
      w.stageOf item.status = .ok source ∧ w.status? nextStage = none ∧
      let request (target : String) := Run.moveItem Run.publish id (.str target) actor
      (∀ target, target ≠ nextStage → ((∃ choice ∈ choices, choice.target = target) ↔
        ∀ item source aim reason, ¬ Run.FailsFor (request target) (s.through ops)
          (.illegal item source aim reason))) ∧
      ∀ choice ∈ choices,
        (∀ item stage roles, Run.FailsFor (request choice.target) (s.through ops)
          (.approvalPending item stage roles) ↔
            choice.missingRoles ≠ [] ∧ item = id ∧ stage = source.id ∧
              roles = choice.missingRoles) ∧
        (∀ item stage criteria, Run.FailsFor (request choice.target) (s.through ops)
          (.criteriaUnmet item stage criteria) ↔
            choice.missingRoles = [] ∧ choice.unmetCriteria ≠ [] ∧ source.enforcement = .hard ∧
              item = id ∧ stage = source.id ∧ criteria = choice.unmetCriteria) ∧
        (Run.Grants (request choice.target) (s.through ops) choice.target ↔
          choice.missingRoles = [] ∧
            (choice.unmetCriteria = [] ∨ source.enforcement ≠ .hard)) := by
  obtain ⟨choices, w, source, hchoices, hversion, placed, hnext, hunlisted, hlisted⟩ :=
    Run.requests_of_choices (bound_through new coherent compiled ops) (idle_through idle ops)
      inTime undisturbed stored actor
  refine ⟨choices, w, source, hchoices, hversion, placed, hnext, fun target named => ⟨?_, ?_⟩,
    fun choice hchoice => ?_⟩
  · rintro ⟨choice, hchoice, rfl⟩
    exact (hlisted choice hchoice).not_illegal
  · intro hlegal
    by_contra hnone
    simp only [not_exists, not_and] at hnone
    obtain ⟨reason, hillegal⟩ := hunlisted target named hnone
    exact hlegal _ _ _ _ hillegal
  · have obeys := hlisted choice hchoice
    exact ⟨obeys.pending_iff, obeys.unmet_iff, obeys.grants_iff⟩

/-- An item of a level that asks for a sign-off, and one without a level. -/
def choosingSession : List Operation :=
  sampleSession [] ++ [.create { team := "t", id := some "i", complexity := some "plain" },
    .create { team := "t", id := some "j" }]

/-- A move inside of the stage, and one that leaves it. -/
def choosingChoices (missingRoles : List String) : List Workflow.Choice :=
  ["A", "B", "C", "D"].map (fun status => ⟨status, "work", false, [], []⟩) ++
    [⟨"Z", "done", true, missingRoles, ["tested"]⟩]

/-- The item with the level may move to another status of its stage, but does not leave the stage
without the sign-off. Something that is not listed cannot be moved to. -/
theorem choices_foretell_gate :
    let s := System.through {} choosingSession
    let request (target : String) := Run.moveItem Run.publish "i" (.str target) {}
    Run.choicesOf "i" s = .ok (choosingChoices ["lead"]) s ∧ Run.Grants (request "B") s "B" ∧
      (∃ stage, Run.FailsFor (request "Z") s (.approvalPending "i" stage ["lead"])) ∧
      ∃ item source aim reason,
        Run.FailsFor (request "X") s (.illegal item source aim reason) := by
  intro s request
  have hstate : (s.items.get? "i").isSome ∧
      (s.settings.waitsTooLong = false ∧ s.settings.deliversTooLong = false) ∧ s.held = [] ∧
      s.rival = none := by decide +kernel
  have hlist : (Run.choicesOf "i").succeeds s fun choices _ =>
      decide (choices = choosingChoices ["lead"]) := by decide +kernel
  obtain ⟨hstored, hinTime, hheld, hrival⟩ := hstate
  obtain ⟨item, hitem⟩ := Option.isSome_iff_exists.1 hstored
  have hundisturbed : Run.Undisturbed s "i" := ⟨by simp [hheld], by simp [hrival]⟩
  have hlisted := Run.choicesOf_of_succeeds hundisturbed.alone hlist
  obtain ⟨choices, w, source, hchoices, -, -, -, hlegal, hforetold⟩ :=
    choices_foretell (System.new_default {}) Registry.coherent_empty Registry.compiled_empty rfl
      choosingSession hitem ⟨hinTime.1, hinTime.2⟩ hundisturbed {}
  cases hchoices.symm.trans hlisted
  refine ⟨hlisted, ?_, ⟨source.id, ?_⟩, ?_⟩
  · exact (hforetold ⟨"B", "work", false, [], []⟩ (by decide)).2.2.2 ⟨rfl, .inl rfl⟩
  · exact ((hforetold ⟨"Z", "done", true, ["lead"], ["tested"]⟩ (by decide)).1 "i" source.id
      ["lead"]).2 ⟨by decide, rfl, rfl, rfl⟩
  · have hunlisted := (hlegal "X" (by decide)).not.1 (by decide)
    simpa only [not_forall, not_not] using hunlisted

/-- Where the time to wait for a lock is out of range, nothing stands against the move of the same
item to another status of its stage according to its choices, and yet it is not granted; nor is a
request for something that is not listed refused as illegal. -/
theorem choices_mislead :
    let s := System.through { settings := { lockWait := .ofQuotient 10000000000 1 } }
      choosingSession
    let request (target : String) := Run.moveItem Run.publish "i" (.str target) {}
    Run.choicesOf "i" s = .ok (choosingChoices ["lead"]) s ∧ Run.Undisturbed s "i" ∧
      ⟨"B", "work", false, [], []⟩ ∈ choosingChoices ["lead"] ∧
      ¬ Run.Grants (request "B") s "B" ∧
      (∀ choice ∈ choosingChoices ["lead"], choice.target ≠ "X") ∧
      ∀ item source aim reason,
        ¬ Run.FailsFor (request "X") s (.illegal item source aim reason) := by
  intro s request
  have hstate : s.settings.waitsTooLong ∧ s.held = [] ∧ s.rival = none := by decide +kernel
  have hlist : (Run.choicesOf "i").succeeds s fun choices _ =>
      decide (choices = choosingChoices ["lead"]) := by decide +kernel
  obtain ⟨hwait, hheld, hrival⟩ := hstate
  have hundisturbed : Run.Undisturbed s "i" := ⟨by simp [hheld], by simp [hrival]⟩
  have hfails (target : String) : Run.FailsFor (request target) s .waitTooLong :=
    Run.moveItem_of_waitsTooLong hwait
  refine ⟨Run.choicesOf_of_succeeds hundisturbed.alone hlist, hundisturbed, by decide,
    (hfails "B").not_grants, by decide, ?_⟩
  simp [(hfails "X").iff]

/-- In every session, an option is reported ready exactly if the request for it gets past the gate
of the stage that is left. Unless criteria are unmet in a hard stage, that is exactly if the request
is granted; otherwise, exactly if it is refused for these criteria, and no such request is granted.
Nobody is to get in the way, and the times to wait for a lock and for subscribers are to be in
range. -/
theorem ready_iff_granted {s : System} (new : s.New) (coherent : s.registry.Coherent)
    (compiled : s.registry.Compiled) (idle : s.IsIdle) (ops : List Operation) {id : String}
    {item : Item} (stored : (s.through ops).items.get? id = some item)
    (inTime : (s.through ops).settings.InTime)
    (undisturbed : Run.Undisturbed (s.through ops) id) (actor : Actor) :
    ∃ choices w source, Run.choicesOf id (s.through ops) = .ok choices (s.through ops) ∧
      (s.through ops).registry.version item.team item.workflowVersion = .ok w ∧
      w.stageOf item.status = .ok source ∧
      let request (target : String) := Run.moveItem Run.publish id (.str target) actor
      ∀ choice ∈ choices,
        (choice.unmetCriteria = [] ∨ source.enforcement ≠ .hard →
          (choice.ready ↔
            Run.Grants (request choice.target) (s.through ops) choice.target)) ∧
        (choice.unmetCriteria ≠ [] → source.enforcement = .hard →
          ¬ Run.Grants (request choice.target) (s.through ops) choice.target ∧
          (choice.ready ↔ Run.FailsFor (request choice.target) (s.through ops)
            (.criteriaUnmet id source.id choice.unmetCriteria))) := by
  obtain ⟨choices, w, source, hchoices, hversion, placed, -, -, hlisted⟩ :=
    Run.requests_of_choices (bound_through new coherent compiled ops) (idle_through idle ops)
      inTime undisturbed stored actor
  refine ⟨choices, w, source, hchoices, hversion, placed, fun choice hchoice => ?_⟩
  have obeys := hlisted choice hchoice
  have hready : choice.ready ↔ choice.missingRoles = [] := List.isEmpty_iff
  rw [hready, obeys.grants_iff, obeys.unmet_iff]
  refine ⟨fun hnothing => by simp [hnothing], fun hcriteria hhard => ?_⟩
  simp [hcriteria, hhard]

/-- The item without a level is ready to move to another status of its stage, and does. It is ready
to leave the stage, too, but that is refused, for the stage is hard. -/
theorem ready_iff_granted_hard :
    let s := System.through {} choosingSession
    let request (target : String) := Run.moveItem Run.publish "j" (.str target) {}
    Run.choicesOf "j" s = .ok (choosingChoices []) s ∧ Run.Grants (request "B") s "B" ∧
      ∃ stage, Run.FailsFor (request "Z") s (.criteriaUnmet "j" stage ["tested"]) := by
  intro s request
  have hstate : (s.items.get? "j").map (fun item =>
        (item.team, item.workflowVersion, item.status)) = some ("t", 1, "A") ∧
      (s.settings.waitsTooLong = false ∧ s.settings.deliversTooLong = false) ∧ s.held = [] ∧
      s.rival = none := by decide +kernel
  have hplace : ((s.registry.version "t" 1).toOption.bind fun w =>
      (w.stageOf "A").toOption).map (·.enforcement) = some .hard := by decide +kernel
  have hlist : (Run.choicesOf "j").succeeds s fun choices _ =>
      decide (choices = choosingChoices []) := by decide +kernel
  obtain ⟨hstored, hinTime, hheld, hrival⟩ := hstate
  obtain ⟨item, hitem, hfacts⟩ := Option.map_eq_some_iff.1 hstored
  simp only [Prod.mk.injEq] at hfacts
  obtain ⟨hteam, hversion, hstatus⟩ := hfacts
  have hundisturbed : Run.Undisturbed s "j" := ⟨by simp [hheld], by simp [hrival]⟩
  have hlisted := Run.choicesOf_of_succeeds hundisturbed.alone hlist
  obtain ⟨choices, w, source, hchoices, hw, hsource, hready⟩ :=
    ready_iff_granted (System.new_default {}) Registry.coherent_empty Registry.compiled_empty rfl
      choosingSession hitem ⟨hinTime.1, hinTime.2⟩ hundisturbed {}
  cases hchoices.symm.trans hlisted
  have hhard : source.enforcement = .hard := by
    rw [hteam, hversion] at hw
    rw [hstatus] at hsource
    have hw : s.registry.version "t" 1 = .ok w := hw
    simpa only [hw, Except.toOption, Option.bind_some, hsource, Option.map_some,
      Option.some_inj] using hplace
  refine ⟨hlisted, ?_, source.id, ?_⟩
  · exact ((hready ⟨"B", "work", false, [], []⟩ (by decide)).1 (.inl rfl)).1 rfl
  · exact ((hready ⟨"Z", "done", true, [], ["tested"]⟩ (by decide)).2 (by decide) hhard).2.1 rfl

/-- The item without a level is reported ready to leave the stage, nobody gets in the way, and the
request is not granted all the same. -/
theorem ready_yet_refused :
    let s := System.through {} choosingSession
    let choice : Workflow.Choice := ⟨"Z", "done", true, [], ["tested"]⟩
    Run.choicesOf "j" s = .ok (choosingChoices []) s ∧ Run.Undisturbed s "j" ∧
      choice ∈ choosingChoices [] ∧ choice.ready ∧
      ¬ Run.Grants (Run.moveItem Run.publish "j" (.str "Z") {}) s "Z" := by
  intro s choice
  have hstate : s.held = [] ∧ s.rival = none := by decide +kernel
  have hlist : (Run.choicesOf "j").succeeds s fun choices _ =>
      decide (choices = choosingChoices []) := by decide +kernel
  have hrefused : (Run.moveItem Run.publish "j" (.str "Z") {}).raises s fun _ => true := by
    decide +kernel
  obtain ⟨hheld, hrival⟩ := hstate
  have hundisturbed : Run.Undisturbed s "j" := ⟨by simp [hheld], by simp [hrival]⟩
  obtain ⟨fault, t, hfails, -⟩ := Run.raises_iff.1 hrefused
  exact ⟨Run.choicesOf_of_succeeds hundisturbed.alone hlist, hundisturbed, by decide, rfl,
    Run.FailsFor.not_grants ⟨t, hfails⟩⟩

end Stageflow
