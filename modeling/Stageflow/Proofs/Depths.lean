import Stageflow.Proofs.Publications
import Stageflow.Proofs.Twins.Session

/-!
# Cascades end

Automation reacts to events up to a depth, and what it causes is one level deeper. So an operation
that starts at no negative depth never needs more levels of announcements than the limit leaves, and
what lies beyond them makes no difference: its cascade ends by itself. The proof runs an operation
twice from one system, with announcements that agree as far as automation reacts.
-/

namespace Stageflow

/-- Whether an operation starts at no negative depth. -/
def Operation.isGrounded : Operation → Bool
  | .create request => 0 ≤ request.actor.depth
  | .move _ _ actor => 0 ≤ actor.depth
  | .ingest signal => 0 ≤ signal.depth
  | .deliver event _ | .publish event => 0 ≤ event.depth
  | .act context _ => 0 ≤ context.depth
  | .checkThresholds _ _ depth => 0 ≤ depth
  | _ => true

/-- The depth of what automation reacts to, where a notice tells of that. -/
def Notice.reactsTo? : Notice → Option Int
  | .handled event => some event.depth
  | .armed watch | .promoted watch _ => some watch.trigger.depth
  | .broken _ signal => some signal.depth
  | _ => none

/-- Whether an operation runs actions itself, and these ask for moves of a depth. -/
def Operation.asksAt (depth : Int) : Operation → Prop
  | .act context _ => depth = context.depth + 1
  | _ => False

/-- The terms of an operation under a limit: automation reacts up to it, and actions ask for what is
one level deeper than what they run in response to. -/
def Operation.pact (limit : Int) (op : Operation) : Pact where
  bound _ _ _ := True
  reacts depth := 0 ≤ depth ∧ depth ≤ limit
  asks depth := 1 ≤ depth ∧ (depth ≤ limit + 1 ∨ op.asksAt depth)
  deepens h := ⟨by omega, .inl (by omega)⟩
  mixes _ _ := trivial

/-- What holds between operations: no action is running, items stand under their ids, documents
under theirs, and watches remember what automation reacted to. -/
structure System.Grounded (limit : Int) (s : System) : Prop where
  limited : s.settings.maxCascadeDepth = limit
  idle : s.runner.inside = false
  keyed : ∀ id item, s.items.get? id = some item → item.id = id
  source : s.source.Keyed
  watches : ∀ p ∈ s.automation.watches, 0 ≤ p.2.trigger.depth ∧ p.2.trigger.depth ≤ limit

namespace System.Grounded

variable {limit : Int} {s : System} {op : Operation} {announce : Event → Run Unit}

theorem inStep (h : s.Grounded limit) : (op.pact limit).InStep s s false s s :=
  ⟨s, [], rfl, rfl, rfl, h.idle, rfl, id, fun _ => id,
    fun id item hitem => ⟨h.keyed id item hitem, trivial⟩,
    fun _ _ => trivial, h.watches, by simp⟩

theorem descends {depth : Int} (hdepth : 0 ≤ depth) : (op.pact limit).Descends limit depth :=
  fun _ hdeeper hlimit => ⟨Int.le_trans hdepth hdeeper, hlimit⟩

theorem admits (h : s.Grounded limit) (grounded : op.isGrounded)
    (other : op.isOnDocuments = false) : (op.pact limit).Admits s s op := by
  obtain rfl := h.limited
  have hears (op : Operation) (event : Event) :
      (op.pact s.settings.maxCascadeDepth).Hears event := by
    cases event <;> trivial
  cases op with
  | create request => exact ⟨rfl, fun _ _ _ => trivial, descends (of_decide_eq_true grounded)⟩
  | move | ingest | checkThresholds => exact descends (of_decide_eq_true grounded)
  | migrate => exact ⟨rfl, fun _ _ => trivial, fun _ _ => trivial⟩
  | deliver event | publish event =>
    exact ⟨hears _ event, descends (of_decide_eq_true grounded)⟩
  | tick => exact descends (Int.le_refl 0)
  | act context actions =>
    have hdepth : 0 ≤ context.depth := of_decide_eq_true grounded
    exact ⟨⟨by omega, .inr rfl⟩, descends (by omega)⟩
  | putDocument | saveDocument | putFragment | activate | activateAll | check => cases other
  | _ => trivial

theorem alike (h : s.Grounded limit) (grounded : op.isGrounded)
    (other : op.isOnDocuments = false)
    (announces : (op.pact limit).Announces s s announce Run.publish) :
    Run.Alike ((op.pact limit).InStep s s false) (false = true) (fun _ => True)
      (op.answer announce s) (op.answer Run.publish s) := by
  refine Run.twins_answer (fun _ _ _ _ => rfl) announces (fun depth hdepth => ?_)
    (h.admits grounded other) s s h.inStep
  rw [h.limited]
  exact descends (by have := hdepth.1; omega)

/-- An operation comes to the same with all announcements that agree as far as automation reacts. -/
theorem answer_eq (h : s.Grounded limit) (grounded : op.isGrounded)
    (announces : (op.pact limit).Announces s s announce Run.publish) :
    op.answer announce s = op.answer Run.publish s := by
  cases other : op.isOnDocuments with
  | false => exact (h.alike grounded other announces).eq fun _ _ => Pact.InStep.eq
  | true =>
    -- Operations on documents announce nothing.
    cases op with
    | putDocument | saveDocument | putFragment | activate | activateAll | check => rfl
    | _ => cases other

theorem of_holds {t : System} {notices : List Notice} (h : s.Grounded limit)
    (ht : (op.pact limit).Holds s false t notices) : (t.behind s notices).Grounded limit where
  limited := ht.limit.trans h.limited
  idle := ht.inside
  keyed id item hitem := (ht.items id item hitem).1
  source := h.source
  watches := ht.watches

theorem of_prepares {t : System} (h : s.Grounded limit) {teams : String → Prop}
    (ht : s.Prepares teams t) : t.Grounded limit := by
  obtain ⟨source, -, -, rest⟩ := ht
  rw [rest]
  exact ⟨h.limited, h.idle, h.keyed, source, h.watches⟩

end System.Grounded

theorem Pact.fits_of_isOfDocument {pact : Pact} {notice : Notice} (h : notice.isOfDocument) :
    pact.Fits notice := by
  cases notice with
  | resolutionFailed | validationFailed | quality | notActivated => trivial
  | _ => cases h

theorem Pact.reacts_of_fits {pact : Pact} {notice : Notice} (h : pact.Fits notice) {depth : Int}
    (hdepth : notice.reactsTo? = some depth) : pact.reacts depth := by
  cases notice with
  | handled | armed | promoted | broken =>
    cases hdepth
    exact h
  | _ => cases hdepth

/-- What an operation leads to: a system like the one before, with notices that fit its terms. -/
structure Operation.Grounds (op : Operation) (limit : Int) (s t : System) : Prop where
  grounded : t.Grounded limit
  noted : ∃ notices, t.journal = notices ++ s.journal ∧
    ∀ notice ∈ notices, (op.pact limit).Fits notice

namespace Operation

variable {limit : Int} {s : System} {op : Operation}

/-- An operation ends by itself. -/
theorem grounds_answer (h : s.Grounded limit) (grounded : op.isGrounded) :
    Run.Ends (op.Grounds limit s) (fun _ => False) (op.answer Run.publish) s
      fun _ => op.Grounds limit s := by
  cases other : op.isOnDocuments with
  | false =>
    refine (h.alike grounded other (Run.announces_publish fun _ _ _ _ => rfl)).ends ?_ (by simp)
    rintro _ ⟨u, notices, rfl, -, hu⟩
    exact ⟨h.of_holds hu, notices, rfl, hu.notices⟩
  | true =>
    have hprepares : Run.Ends (s.Prepares fun _ => True) (fun _ => False) (op.answer Run.publish) s
        fun _ => s.Prepares fun _ => True :=
      prepares_answer other _ s (.refl h.source)
    have hgrounds (t : System) (ht : s.Prepares (fun _ => True) t) : op.Grounds limit s t := by
      obtain ⟨notices, hjournal, hnotices⟩ := ht.noted
      exact ⟨h.of_prepares ht, notices, hjournal, fun notice hnotice =>
        Pact.fits_of_isOfDocument (hnotices notice hnotice)⟩
    exact (hprepares.weaken hgrounds).mono fun _ t ht => hgrounds t ht

theorem grounds_perform (h : s.Grounded limit) (grounded : op.isGrounded) :
    op.Grounds limit s (op.perform.after s) := by
  rw [after_perform]
  exact (grounds_answer h grounded).after fun _ => False.elim

theorem not_hung_perform (h : s.Grounded limit) (grounded : op.isGrounded) (t : System) :
    op.perform s ≠ .error .hung t := by
  have hends := grounds_answer h grounded
  unfold Run.Ends at hends
  rw [perform_apply]
  intro hhung
  split at hhung
  · cases hhung
  · rename_i halt u heq
    cases hhung
    simp only [heq] at hends

end Operation

theorem System.New.grounded {s : System} (new : s.New) (idle : s.runner.inside = false) :
    s.Grounded s.settings.maxCascadeDepth where
  limited := rfl
  idle
  keyed := by simp [new.items]
  source := new.source
  watches := by simp [new.watches]

theorem System.Grounded.through {limit : Int} {s : System} (h : s.Grounded limit)
    {ops : List Operation} (grounded : ∀ op ∈ ops, op.isGrounded) :
    (s.through ops).Grounded limit := by
  induction ops generalizing s with
  | nil => exact h
  | cons op rest ih =>
    obtain ⟨hop, hrest⟩ := List.forall_mem_cons.1 grounded
    exact ih (Operation.grounds_perform h hop).grounded hrest

/-! ## Automation beyond the limit -/

/-- Beyond the limit automation only notes that it drops the event. -/
theorem handleEvent_of_deep {announce : Event → Run Unit} {event : Event} {s : System}
    (deep : s.settings.maxCascadeDepth < event.depth) :
    Run.handleEvent announce event s =
      .ok () { s with
        journal := .dropped event s.settings.maxCascadeDepth :: s.journal } := by
  unfold Run.handleEvent
  rw [Run.get_bind_apply, if_pos deep]
  rfl

/-- Cascades are bounded by the limit and end. Actions ask for moves at most one level deeper than
the limit, unless they are run by hand; automation reacts to nothing beyond the limit; and an
operation publishes all that it causes, but needs no more levels than the limit leaves. -/
theorem cascades_end {s : System} (new : s.New) (idle : s.runner.inside = false)
    {before : List Operation} (grounded : ∀ op ∈ before, op.isGrounded) {op : Operation}
    (next : op.isGrounded) :
    let limit := s.settings.maxCascadeDepth
    let t := s.through before
    (∃ noted, (op.perform.after t).journal = noted ++ t.journal ∧
      (∀ item target actor, .asked item target actor ∈ noted →
        1 ≤ actor.depth ∧ (actor.depth ≤ limit + 1 ∨ op.asksAt actor.depth)) ∧
      ∀ notice ∈ noted, ∀ depth, notice.reactsTo? = some depth → 0 ≤ depth ∧ depth ≤ limit) ∧
    (∀ announce event (u : System), u.settings.maxCascadeDepth = limit → limit < event.depth →
      Run.handleEvent announce event u =
        .ok () { u with journal := .dropped event limit :: u.journal }) ∧
    op.answer (Run.publishWith Run.publish) t = op.answer Run.publish t ∧
    (∀ beyond n, Run.levels limit 0 ≤ n →
      op.answer (Run.cascadeOver beyond n) t = op.answer Run.publish t) ∧
    ∀ u, op.perform t ≠ .error .hung u := by
  intro limit t
  have ht : t.Grounded limit := (new.grounded idle).through grounded
  refine ⟨?_, ?_, ?_, ?_, Operation.not_hung_perform ht next⟩
  · obtain ⟨-, noted, hjournal, hnoted⟩ := Operation.grounds_perform ht next
    refine ⟨noted, hjournal, fun item target actor h => hnoted _ h, fun notice h depth hdepth => ?_⟩
    exact Pact.reacts_of_fits (hnoted notice h) hdepth
  · rintro announce event u hlimit hdeep
    rw [← hlimit] at hdeep ⊢
    exact handleEvent_of_deep hdeep
  · exact ht.answer_eq next (Run.announces_publishWith fun _ _ _ _ => rfl)
  · intro beyond n hn
    refine ht.answer_eq next (Run.announces_cascadeOver (fun _ _ _ _ => rfl) fun depth hdepth => ?_)
    rw [ht.limited] at hdepth ⊢
    refine Nat.le_trans ?_ hn
    by_cases hle : depth ≤ limit
    · have hreacts : 0 ≤ depth := (hdepth depth (Int.le_refl _) hle).1
      unfold Run.levels
      omega
    · unfold Run.levels
      omega

/-- An item of a team whose rules move items in a circle. -/
def circling : List Operation :=
  sampleSession [onwardRule "B" "C", onwardRule "C" "B"] ++
    [.create { team := "t", id := some "i" }]

/-- The depths at which actions asked for moves, newest first. -/
def System.askedDepths (s : System) : List Int :=
  s.journal.filterMap fun
    | .asked _ _ actor => some actor.depth
    | _ => none

/-- Under a limit of two, a circle is left after three moves. -/
theorem cascades_end_circling :
    let t := System.through { settings := { maxCascadeDepth := 2 } } circling
    let op := Operation.move "i" (.str "B") {}
    (op.perform.after t).askedDepths = [3, 2, 1] ∧
      (∀ beyond, op.answer (Run.cascadeOver beyond 4) t = op.answer Run.publish t) ∧
      ∀ u, op.perform t ≠ .error .hung u := by
  intro t op
  have hrun : (op.perform.after t).askedDepths = [3, 2, 1] := by decide +kernel
  have hbefore : ∀ op ∈ circling, op.isGrounded := by decide +kernel
  have hnext : op.isGrounded := by decide +kernel
  obtain ⟨-, -, -, hlevels, hends⟩ :=
    cascades_end (System.new_default { maxCascadeDepth := 2 }) rfl hbefore hnext
  exact ⟨hrun, fun beyond => hlevels beyond 4 (by decide), hends⟩

end Stageflow
