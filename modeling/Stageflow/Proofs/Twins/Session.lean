import Stageflow.Proofs.Twins.Cascade
import Stageflow.System.Answers

/-!
# Operations in step

Operations are in step where they start from what keeps to the pact. Those that touch what is behind
the scenes are not.
-/

namespace Stageflow

/-- Whether what an operation starts from keeps to a pact. -/
def Pact.Admits (pact : Pact) (s₀ t₀ : System) : Operation → Prop
  | .create request =>
    t₀.registry = s₀.registry ∧ (∀ id team version, pact.bound id team version) ∧
      pact.Descends s₀.settings.maxCascadeDepth request.actor.depth
  | .move _ _ actor => pact.Descends s₀.settings.maxCascadeDepth actor.depth
  | .migrate .. => t₀.registry = s₀.registry ∧ pact.Rebinds s₀
  | .ingest signal => pact.Descends s₀.settings.maxCascadeDepth signal.depth
  | .deliver event _ | .publish event =>
    pact.Hears event ∧ pact.Descends s₀.settings.maxCascadeDepth event.depth
  | .tick _ => pact.Descends s₀.settings.maxCascadeDepth 0
  | .act context _ =>
    pact.asks (context.depth + 1) ∧
      pact.Descends s₀.settings.maxCascadeDepth (context.depth + 1)
  | .checkThresholds _ _ depth => pact.Descends s₀.settings.maxCascadeDepth depth
  | .putDocument _ | .saveDocument .. | .putFragment .. | .activate _ | .activateAll
  | .check _ => False
  | _ => True

namespace Run

variable {H : Prop} {pact : Pact} {s₀ t₀ : System} {inside : Bool} {a b : Event → Run Unit}

/-! ## The evaluator -/

theorem twins_promote (agrees : pact.Agrees s₀ t₀) {watch : Watch}
    (reacts : pact.reacts watch.trigger.depth)
    (echoes : pact.Echoes s₀ t₀ (watch.trigger.depth + 1) a b) (now : Instant) :
    Twins (pact.InStep s₀ t₀ inside) (inside = true) (promote a now watch)
      (promote b now watch) := by
  refine .bind (.attempt (twin_loadItem _)) fun result _ => ?_
  cases result with
  | error fault => exact .bind (twins_note trivial) fun _ _ => .pure trivial
  | ok item =>
    refine .ite (fun _ => .pure trivial) fun _ => .read ?_
    rintro _ _ ⟨u, notices, rfl, rfl, -⟩
    simp only [System.behind]
    cases ruleOf? u.automation watch with
    | none => exact .bind (twins_note trivial) fun _ _ => .pure trivial
    | some rule =>
      exact .bind (twins_note reacts) fun _ _ =>
        .bind (.tryFinally_note (twins_runRule agrees _ reacts echoes _ _ _ _) (twins_note trivial))
          fun _ _ => .pure trivial

/-- A tick acts on watches, whose triggers automation reacts to, and checks limits at the top. -/
theorem twins_tick (agrees : pact.Agrees s₀ t₀)
    (echoes : ∀ depth, pact.reacts depth → pact.Echoes s₀ t₀ (depth + 1) a b)
    (carries : pact.Carries s₀ t₀ 0 a b) (time : Option Instant) :
    Twins (pact.InStep s₀ t₀ inside) (inside = true) (tick a time) (tick b time) := by
  refine .read ?_
  rintro _ _ ⟨u, notices, rfl, rfl, hu⟩
  simp only [System.behind]
  have hdue {now : Instant} {watch : Watch} (h : watch ∈ u.automation.watches.due now) :
      pact.reacts watch.trigger.depth := by
    obtain ⟨p, hp, rfl⟩ := List.mem_map.1 (List.mem_filter.1 (mem_sortBy.1 h)).1
    exact hu.watches p hp
  refine .ite (fun _ => .raise) fun _ =>
    .bind (twins_setWatches fun p hp => hu.watches p (List.mem_filter.1 hp).1) fun _ _ =>
      .bind (twins_note trivial) fun _ _ => .bind (.filterMapM fun watch hwatch => ?_) fun _ _ =>
        .read ?_
  · exact twins_promote agrees (hdue hwatch) (echoes _ (hdue hwatch)) _
  · rintro _ _ ⟨v, notices, rfl, rfl, -⟩
    refine .bind (.forM fun hook _ => ?_) fun _ _ => .pure trivial
    cases hook with
    | thresholds =>
      refine .bind (.attempt (twins_checkThresholds agrees carries)) fun result _ => ?_
      cases result with
      | ok _ => exact .pure trivial
      | error _ => exact twins_note trivial
    | failing => exact twins_note trivial
    | notifying => exact twins_record fun r => { r with sent := r.sent ++ [_] }

theorem twins_disarm (item : String) (rule : Option String) :
    Twins (pact.InStep s₀ t₀ inside) H (disarm item rule) (disarm item rule) := by
  refine .read ?_
  rintro _ _ ⟨u, notices, rfl, rfl, hu⟩
  exact .bind (twins_setWatches fun p hp => hu.watches p (List.mem_filter.1 hp).1) fun _ _ =>
    .bind (.forM fun _ _ => twins_note trivial) fun _ _ => .pure trivial

theorem twins_advance (seconds : Json) :
    Twins (pact.InStep s₀ t₀ inside) H (advance seconds) (advance seconds) := by
  refine .read ?_
  rintro _ _ ⟨u, notices, rfl, rfl, -⟩
  refine .bind .ofReading fun clock _ => .bind (twins_modify fun u _ hu => ?_) fun _ _ =>
    .pure trivial
  exact ⟨{ u with clock }, rfl, rfl, { hu with }⟩

theorem twins_setRunning {running : Bool} :
    Twins (pact.InStep s₀ t₀ inside) H (changeAutomation fun a => { a with running })
      (changeAutomation fun a => { a with running }) :=
  twins_modify fun u _ hu =>
    ⟨{ u with automation := { u.automation with running } }, rfl, rfl, { hu with }⟩

theorem twins_startEvaluator :
    Twins (pact.InStep s₀ t₀ inside) H startEvaluator startEvaluator := by
  refine .read ?_
  rintro _ _ ⟨u, notices, rfl, rfl, -⟩
  exact .ite (fun _ => twins_note trivial) fun _ => twins_setRunning

/-! ## Creation -/

theorem twins_levelFor {w : Workflow} {request : NewItem} :
    Twins (pact.InStep s₀ t₀ inside) H (levelFor w request) (levelFor w request) := by
  unfold levelFor
  split
  · exact .ite (fun _ => .raise) fun _ => .pure trivial
  · exact .pure trivial
  · exact .bind .ofReading fun _ _ => .pure trivial

theorem twins_idFor {given : Option String} :
    Twins (pact.InStep s₀ t₀ inside) H (idFor given) (idFor given) := by
  unfold idFor
  split
  · exact .ite (fun _ => twins_newId) fun _ => .pure trivial
  · exact twins_newId

/-- A creation goes by the active version, so it is in step only where that is the same, and where
an item may be bound to any version. -/
theorem twins_createItem (registry : t₀.registry = s₀.registry)
    (free : ∀ id team version, pact.bound id team version) {request : NewItem}
    (echoes : pact.Echoes s₀ t₀ request.actor.depth a b) :
    Twins (pact.InStep s₀ t₀ inside) (inside = true) (createItem a request)
      (createItem b request) := by
  refine .read ?_
  rintro _ _ ⟨u, notices, rfl, rfl, -⟩
  simp only [System.behind, registry]
  refine .bind (.ofExcept fun _ _ => trivial) fun w _ =>
    .bind twins_levelFor fun level _ => .read ?_
  rintro _ _ ⟨u, notices, rfl, rfl, -⟩
  refine .bind (.ofExcept fun _ _ => trivial) fun stage _ => .bind twins_idFor fun id _ => .read ?_
  rintro _ _ ⟨v, notices, rfl, rfl, hv⟩
  refine .bind (.ofExcept fun _ h => h) fun created hcreated => ?_
  unfold Items.create at hcreated
  split at hcreated
  · cases hcreated
  · cases hcreated
    refine .bind (twins_modify fun u _ hu => ?_) fun _ _ => .bind (twins_note trivial) fun _ _ =>
      .bind (echoes inside _ rfl (free ..)) fun _ _ => .pure trivial
    refine ⟨{ u with items := _ }, rfl, rfl, { hu with known := fun id hknown => ?_, items := ?_ }⟩
    · exact Table.has_put (hv.known id hknown)
    · exact Table.forall_get?_put ⟨rfl, free ..⟩ fun id other _ => hv.items id other

/-! ## Operations -/

theorem twins_answer (agrees : pact.Agrees s₀ t₀) (announces : pact.Announces s₀ t₀ a b)
    (onward : ∀ depth, pact.reacts depth →
      pact.Descends s₀.settings.maxCascadeDepth (depth + 1))
    {op : Operation} (admits : pact.Admits s₀ t₀ op) :
    Twins (pact.InStep s₀ t₀ inside) (inside = true) (op.answer a) (op.answer b) := by
  cases op with
  | create request =>
    obtain ⟨registry, free, descends⟩ := admits
    exact .bind (twins_createItem registry free (announces.echoes descends)) fun _ _ =>
      .pure trivial
  | move item target actor =>
    exact .bind (twins_moveItem agrees (announces.echoes admits) item target) fun _ _ =>
      .pure trivial
  | signOff item stage role approver =>
    exact .bind (twins_signOff agrees item stage role approver) fun _ _ => .pure trivial
  | setCriterion item criterion satisfied =>
    exact .bind (twins_setCriterion item criterion satisfied) fun _ _ => .pure trivial
  | migrate item version =>
    exact .bind (twins_migrate admits.1 admits.2 item version) fun _ _ => .pure trivial
  | choices item => exact .bind (twins_choicesOf agrees item) fun _ _ => .pure trivial
  | gate item stage => exact .bind (twins_gateOf agrees item stage) fun _ _ => .pure trivial
  | ingest signal =>
    exact .bind (twins_ingest agrees (announces.carries admits)) fun _ _ => .pure trivial
  | deliver event subscriber =>
    exact .bind (twins_deliver agrees admits.1 (announces.carries admits.2) subscriber) fun _ _ =>
      .pure trivial
  | publish event =>
    exact .bind (announces inside event admits.1 admits.2) fun _ _ => .pure trivial
  | tick time =>
    refine .bind (twins_tick agrees (fun depth h => ?_) (announces.carries admits) time) fun _ _ =>
      .pure trivial
    exact announces.echoes (onward depth h)
  | disarm item rule => exact .bind (twins_disarm item rule) fun _ _ => .pure trivial
  | act context actions =>
    exact .bind (twins_runActions agrees admits.1 (announces.echoes admits.2) actions) fun _ _ =>
      .pure trivial
  | checkThresholds time items depth =>
    exact .bind (twins_checkThresholds agrees (announces.carries admits)) fun _ _ => .pure trivial
  | advance seconds => exact .bind (twins_advance seconds) fun _ _ => .pure trivial
  | startEvaluator => exact .bind twins_startEvaluator fun _ _ => .pure trivial
  | stopEvaluator => exact .bind twins_setRunning fun _ _ => .pure trivial
  | putDocument | saveDocument | putFragment | activate | activateAll | check =>
    exact admits.elim

end Run

end Stageflow
