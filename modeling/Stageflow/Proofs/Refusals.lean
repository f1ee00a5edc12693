import Stageflow.Proofs.Core.Items
import Stageflow.Proofs.Evolution.Session
import Stageflow.System.Answers

/-!
# Refused requests leave no trace

What comes behind the write of a request is its announcement. Whatever a subscriber raises goes no
further, so an announcement fails only where the calls of subscribers cannot be waited for. A
request that fails in any other way does so before it has written anything, and leaves a system as
it was, but for the ids that it drew, its remarks in the journal and what a rival wrote meanwhile.
-/

namespace Stageflow

open Run

variable {s t : System} {α : Type} {announce : Event → Run Unit}

/-! ## Announcements seldom fail -/

namespace Run

/-- Whether a computation raises nothing: it gives a value, or hangs. -/
def NeverFails (action : Run α) : Prop :=
  ∀ s, Ends (fun _ => False) (fun _ => True) action s fun _ _ => True

theorem neverFails_note (notice : Notice) : NeverFails (note notice) := fun _ => trivial

theorem neverFails_attempt (action : Run α) : NeverFails (Run.attempt action) :=
  fun s => Ends.attempt (ends_anyhow action s) fun _ _ _ => trivial

theorem neverFails_forM {f : α → Run PUnit} {xs : List α} (h : ∀ x, NeverFails (f x)) :
    NeverFails (xs.forM f) := by
  induction xs with
  | nil => exact fun _ => trivial
  | cons x xs ih => exact fun s => ends_forM_cons.2 ((h x s).mono fun _ t _ => ih t)

/-- What a subscriber raises goes no further. -/
theorem neverFails_deliverSafely (event : Event) (subscriber : Subscriber) :
    NeverFails (deliverSafely announce event subscriber) := by
  intro s
  simp only [deliverSafely, ends_bind, ends_note]
  refine (neverFails_attempt (deliver announce event subscriber) _).mono fun result t _ => ?_
  cases result with
  | ok _ => trivial
  | error fault => exact neverFails_note _ t

theorem neverFails_handOver (event : Event) : NeverFails (handOver announce event) := by
  intro s
  simp only [handOver, ends_bind, ends_get]
  split
  · exact neverFails_forM (neverFails_deliverSafely event) s
  · trivial

/-- From a state, a computation gives a value and a state of which `Q` holds, raises a fault in a
state as `F` says, or hangs. -/
def FailsBy (F : Fault → System → Prop) (action : Run α) (s : System) (Q : α → System → Prop) :
    Prop :=
  match action s with
  | .ok a t => Q a t
  | .error (.raised fault) t => F fault t
  | .error .hung _ => True

section FailsBy

variable {β : Type} {F G : Fault → System → Prop} {I : System → Prop}

theorem FailsBy.mono {action : Run α} {Q R : α → System → Prop} (h : FailsBy F action s Q)
    (hFG : ∀ fault t, F fault t → G fault t) (hQR : ∀ a t, Q a t → R a t) :
    FailsBy G action s R := by
  unfold FailsBy at h ⊢
  split <;> simp_all

/-- What holds of all faults holds of each. -/
theorem Ends.failsBy {action : Run α} {Q : α → System → Prop}
    (h : Ends I (fun _ => True) action s Q) : FailsBy (fun _ => I) action s Q := by
  unfold Ends at h
  unfold FailsBy
  split <;> simp_all

theorem failsBy_bind {action : Run α} {next : α → Run β} {Q : β → System → Prop} :
    FailsBy F (action >>= next) s Q ↔ FailsBy F action s fun a t => FailsBy F (next a) t Q := by
  unfold FailsBy
  rw [bind_apply]
  cases action s with
  | ok a t => rfl
  | error halt t => cases halt <;> rfl

theorem failsBy_get {Q : System → System → Prop} : FailsBy F get s Q ↔ Q s s := Iff.rfl

theorem failsBy_modify {change : System → System} {Q : PUnit → System → Prop} :
    FailsBy F (modify change : Run PUnit) s Q ↔ Q ⟨⟩ (change s) := Iff.rfl

theorem failsBy_note {notice : Notice} {Q : Unit → System → Prop} :
    FailsBy F (note notice) s Q ↔ Q () { s with journal := notice :: s.journal } := Iff.rfl

theorem failsBy_ofExcept {x : Except Fault α} {Q : α → System → Prop} :
    FailsBy F (ofExcept x) s Q ↔ match x with | .ok a => Q a s | .error fault => F fault s := by
  cases x <;> rfl

end FailsBy

/-- Whether a computation fails only where the calls for an event cannot be waited for. -/
def FailsLate (action : Run α) : Prop :=
  ∀ s, FailsBy (fun fault _ => fault = .budgetTooLong ∧ s.settings.deliversTooLong) action s
    fun _ _ => True

theorem failsLate_publishWith (event : Event) : FailsLate (publishWith announce event) := by
  intro s
  simp only [publishWith, failsBy_bind, failsBy_get]
  refine (neverFails_handOver event s).failsBy.mono (fun _ _ => False.elim) fun _ t _ => ?_
  unfold waitUnless
  split
  · rename_i refused
    exact ⟨rfl, (Bool.and_eq_true_iff.1 refused).1⟩
  · trivial

theorem failsLate_cascade (n : Nat) (event : Event) : FailsLate (cascade n event) := by
  cases n with
  | zero => exact fun _ => trivial
  | succ n => exact failsLate_publishWith event

theorem failsLate_publish (event : Event) : FailsLate (publish event) := by
  intro s
  simp only [publish, failsBy_bind, failsBy_get]
  exact failsLate_cascade _ event s

end Run

/-! ## What a refused request leaves -/

/-- Whether a notice is a remark that tells of no event: a level was cleared, or a rival saved. -/
def Notice.isRemark : Notice → Bool
  | .levelCleared .. | .saved _ => true
  | _ => false

theorem delivered?_remark {notice : Notice} (h : notice.isRemark) : notice.delivered? = none := by
  cases notice <;> first | rfl | cases h

/-- What a system still is behind a refused request about an item, if it is about a stored one: the
same, but for drawn ids, remarks, and what a rival that waited for the item wrote. -/
structure System.Spares (s : System) (about : Option String) (t : System) : Prop where
  others : t = { s with
    nextId := t.nextId, items := t.items, rival := t.rival, journal := t.journal }
  items : t.items = s.items ∨ ∃ id item, about = some id ∧ s.rival = some id ∧
    s.items.get? id = some item ∧
      t.items = s.items.put id { item with version := item.version + 1 }
  journal : ∃ remarks, t.journal = remarks ++ s.journal ∧ ∀ notice ∈ remarks, notice.isRemark

namespace System.Spares

variable {about : Option String}

theorem refl (s : System) (about : Option String) : s.Spares about s :=
  ⟨rfl, .inl rfl, [], rfl, by simp⟩

theorem settings (h : s.Spares about t) : t.settings = s.settings := by
  rw [h.others]

theorem remark (h : s.Spares about t) {notice : Notice} (remark : notice.isRemark) :
    s.Spares about { t with journal := notice :: t.journal } := by
  obtain ⟨remarks, hjournal, hremarks⟩ := h.journal
  refine ⟨congrArg (fun u => { u with journal := notice :: t.journal }) h.others, h.items,
    notice :: remarks, by simp [hjournal], ?_⟩
  exact List.forall_mem_cons.2 ⟨remark, hremarks⟩

theorem drawn (h : s.Spares about t) (nextId : Nat) : s.Spares about { t with nextId } :=
  ⟨congrArg (fun u => { u with nextId }) h.others, h.items, h.journal⟩

/-- A rival that waits for the item writes when the item is loaded. -/
theorem overtake {id : String} {item : Item} (stored : s.items.get? id = some item) :
    s.Spares (some id) (overtake s id item) := by
  unfold Run.overtake
  split
  · rename_i hrival
    refine ⟨rfl, .inr ⟨id, item, rfl, hrival, stored, rfl⟩, [.saved _], rfl, ?_⟩
    simp [Notice.isRemark]
  · exact refl s _

/-- The lock that was taken is given back. -/
theorem release {id : String} (h : { s with held := id :: s.held }.Spares about t) :
    s.Spares about { t with held := t.held.erase id } := by
  have hheld : t.held = id :: s.held := congrArg System.held h.others
  refine ⟨?_, h.items, h.journal⟩
  rw [hheld, List.erase_cons_head]
  exact congrArg (fun u => { u with held := s.held }) h.others

/-- Remarks tell of no delivery. -/
theorem delivered (h : s.Spares about t) : t.delivered = s.delivered := by
  obtain ⟨remarks, hjournal, hremarks⟩ := h.journal
  have hnone : remarks.filterMap Notice.delivered? = [] :=
    List.filterMap_eq_nil_iff.2 fun notice hnotice => delivered?_remark (hremarks notice hnotice)
  rw [System.delivered, hjournal, List.filterMap_append, hnone, List.nil_append]
  rfl

end System.Spares

/-! ## Requests that fail -/

namespace Run

variable {about : Option String}

/-- Whether a computation leaves no trace where it fails, and the settings in any case. -/
def Spares (about : Option String) (action : Run α) (s : System) : Prop :=
  Ends (s.Spares about) (fun _ => True) action s fun _ t => t.settings = s.settings

/-- Whether a computation leaves no trace where it fails, unless it fails late. -/
def SparesOrLate (about : Option String) (action : Run α) (s : System) : Prop :=
  FailsBy
    (fun fault t => s.Spares about t ∨ fault = .budgetTooLong ∧ s.settings.deliversTooLong)
    action s fun _ _ => True

theorem Spares.orLate {action : Run α} (h : Spares about action s) :
    SparesOrLate about action s :=
  (Ends.failsBy h).mono (fun _ _ => .inl) fun _ _ _ => trivial

/-- What is announced last fails late if it fails. -/
theorem sparesOrLate_announce {about : Option String} (ha : ∀ event, FailsLate (announce event))
    (event : Event) (value : α) (ht : t.settings = s.settings) :
    FailsBy (fun fault t => s.Spares about t ∨ fault = .budgetTooLong ∧ s.settings.deliversTooLong)
      (do announce event; return value) t fun _ _ => True := by
  rw [failsBy_bind, ← ht]
  exact (ha event t).mono (fun _ _ => .inr) fun _ _ _ => trivial

theorem spares_loadItem (id : String) (s : System) :
    Ends (s.Spares (some id)) (fun _ => True) (loadItem id) s fun _ t => s.Spares (some id) t := by
  unfold Ends
  rw [loadItem_apply]
  cases hitem : s.items.get? id with
  | none => exact .refl s _
  | some item => exact .overtake hitem

theorem spares_writeItem (h : s.Spares about t) (item : Item) (expected : Int) :
    Ends (s.Spares about) (fun _ => True) (writeItem item expected) t fun _ u =>
      u.settings = s.settings := by
  have hsettings : t.settings = s.settings := h.settings
  unfold Ends
  rw [writeItem_apply]
  cases t.items.get? item.id with
  | none => exact h
  | some current =>
    by_cases hversion : current.version = expected
    · simpa [hversion] using hsettings
    · simpa [hversion] using h

theorem spares_underLock {id : String} {action : Run α}
    (h : ∀ s, Spares about action s) (s : System) : Spares about (underLock id action) s := by
  have hrun := h { s with held := id :: s.held }
  unfold Spares Ends at hrun ⊢
  rw [underLock_apply]
  by_cases hwait : s.settings.waitsTooLong
  · simp only [hwait, if_true]
    exact .refl s _
  by_cases hheld : id ∈ s.held
  · simp only [hwait, hheld, Bool.false_eq_true, if_false, if_true]
    exact .refl s _
  simp only [hwait, hheld, Bool.false_eq_true, if_false]
  cases haction : action { s with held := id :: s.held } with
  | ok a t =>
    rw [haction] at hrun
    exact hrun
  | error halt t =>
    rw [haction] at hrun
    cases halt with
    | raised fault => exact hrun.release
    | hung => trivial

theorem spares_commitMove (id : String) (target : Json) (actor : Actor) (s : System) :
    Spares (some id) (commitMove id target actor) s := by
  simp only [Spares, commitMove, ends_bind]
  refine (spares_loadItem id s).mono fun item t ht => ?_
  simp only [workflowOf, ends_bind, ends_get, ends_ofExcept]
  split
  · split
    · exact (spares_writeItem ht _ _).mono fun _ _ hu => hu
    · exact ht
  · exact ht

theorem spares_moveItem (ha : ∀ event, FailsLate (announce event)) (id : String) (target : Json)
    (actor : Actor) (s : System) :
    SparesOrLate (some id) (moveItem announce id target actor) s := by
  have hcommit : Spares (some id) (underLock id (commitMove id target actor)) s :=
    spares_underLock (spares_commitMove id target actor) s
  rw [SparesOrLate, moveItem, failsBy_bind]
  exact (Ends.failsBy hcommit).mono (fun _ _ => .inl) fun passage t ht =>
    sparesOrLate_announce ha _ passage ht

theorem spares_createItem (ha : ∀ event, FailsLate (announce event)) (request : NewItem)
    (s : System) : SparesOrLate none (createItem announce request) s := by
  have hstill := System.Spares.refl s none
  simp only [SparesOrLate, createItem, failsBy_bind, failsBy_get, failsBy_ofExcept]
  split
  · refine (Ends.failsBy (ends_levelFor hstill)).mono (fun _ _ => .inl) ?_
    rintro complexity t rfl
    split
    · refine (Ends.failsBy (I := fun _ => False) ends_idFor).mono (fun _ _ => False.elim) ?_
      rintro id _ ⟨nextId, rfl⟩
      split
      · simp only [failsBy_modify, failsBy_note]
        exact (ha _ _).mono (fun _ _ => .inr) fun _ _ _ => trivial
      · exact .inl (hstill.drawn nextId)
    · exact .inl hstill
  · exact .inl hstill

theorem spares_signOff (id stage role : String) (approver : Json) (s : System) :
    Spares (some id) (signOff id stage role approver) s := by
  refine spares_underLock (fun s => ?_) s
  simp only [Spares, ends_bind]
  refine (spares_loadItem id s).mono fun item t ht => (ends_workflowOf ht item).mono ?_
  rintro w _ ⟨rfl, -⟩
  simp only [ends_get, ends_ofExcept]
  split
  · split
    · simp only [ends_bind]
      exact (spares_writeItem ht _ _).mono fun _ _ hu => hu
    · exact ht.settings
  · exact ht

theorem spares_setCriterion (id criterion : String) (satisfied : Json) (s : System) :
    Spares (some id) (setCriterion id criterion satisfied) s := by
  refine spares_underLock (fun s => ?_) s
  simp only [Spares, ends_bind]
  refine (spares_loadItem id s).mono fun item t ht => ?_
  simp only [ends_get]
  split
  · exact spares_writeItem ht _ _
  · exact ht.settings

theorem spares_migrate (id : String) (version : Option Int) (s : System) :
    Spares (some id) (migrate id version) s := by
  refine spares_underLock (fun s => ?_) s
  simp only [Spares, ends_bind]
  refine (spares_loadItem id s).mono fun item t ht => ?_
  simp only [ends_get]
  refine ends_ofExcept.2 ?_
  split
  · simp only [ends_ofExcept]
    split
    · split
      · exact ht.settings
      · split
        · exact spares_writeItem (ht.remark rfl) _ _
        · exact spares_writeItem ht _ _
    · exact ht
  · exact ht

end Run

/-! ## Operations -/

namespace Operation

/-- Whether an operation asks for an item to be created or changed. -/
def isRequest : Operation → Bool
  | .create _ | .move .. | .signOff .. | .setCriterion .. | .migrate .. => true
  | _ => false

/-- The stored item that a request is about. -/
def item? : Operation → Option String
  | .move item .. | .signOff item .. | .setCriterion item .. | .migrate item _ => some item
  | _ => none

theorem spares_answer (ha : ∀ event, FailsLate (announce event)) {op : Operation}
    (hrequest : op.isRequest) (s : System) : Run.SparesOrLate op.item? (op.answer announce) s := by
  have hvalue {α β : Type} {action : Run α} {f : α → β} (h : Run.SparesOrLate op.item? action s) :
      Run.SparesOrLate op.item? (do return f (← action)) s := by
    rw [Run.SparesOrLate, failsBy_bind]
    exact h.mono (fun _ _ => id) fun _ _ _ => trivial
  cases op with
  | create request => exact hvalue (spares_createItem ha request s)
  | move item target actor => exact hvalue (spares_moveItem ha item target actor s)
  | signOff item stage role approver =>
    exact hvalue (spares_signOff item stage role approver s).orLate
  | setCriterion item criterion satisfied =>
    exact hvalue (spares_setCriterion item criterion satisfied s).orLate
  | migrate item version => exact hvalue (spares_migrate item version s).orLate
  | _ => cases hrequest

end Operation

/-- A refused request leaves no trace, whatever it is refused for, in whatever state it is made and
whether it comes from outside or from an action of a cascade, if the time that subscribers have can
be waited for. The items are as they were, but for what a rival wrote that waited for the same item,
and so are the watches, the metrics, the records and the alerts. Nothing was delivered, and the lock
of the item is given back if it was taken. -/
theorem refused_leaves_no_trace {announce : Event → Run Unit}
    (announces : announce = Run.publish ∨ ∃ n, announce = Run.cascade n) {op : Operation}
    (request : op.isRequest) {s t : System} (inTime : s.settings.deliversTooLong = false)
    {fault : Fault} (refused : op.answer announce s = .error (.raised fault) t) :
    (t.items = s.items ∨ ∃ id item, op.item? = some id ∧ s.rival = some id ∧
      s.items.get? id = some item ∧
        t.items = s.items.put id { item with version := item.version + 1 }) ∧
      t.automation = s.automation ∧ t.metrics = s.metrics ∧ t.records = s.records ∧
      t.alerts = s.alerts ∧ t.dispatcher = s.dispatcher ∧ t.delivered = s.delivered ∧
      t.held = s.held := by
  have hannounce : ∀ event, FailsLate (announce event) := by
    obtain rfl | ⟨n, rfl⟩ := announces
    · exact failsLate_publish
    · exact failsLate_cascade n
  have hrefused := Operation.spares_answer hannounce request s
  unfold Run.SparesOrLate FailsBy at hrefused
  rw [refused] at hrefused
  obtain hspares | ⟨-, late⟩ := hrefused
  case inr => exact absurd (inTime.symm.trans late) Bool.false_ne_true
  refine ⟨hspares.items, ?_, ?_, ?_, ?_, ?_, hspares.delivered, ?_⟩ <;> rw [hspares.others]

/-- A system with some settings in which an item of the sample team is in "A". -/
def admitted (settings : Settings) : System :=
  System.through { settings } (sampleSession [] ++ [.create { team := "t", id := some "i" }])

/-- A rival waits for the item that is to be moved, and writes it as soon as it is loaded. -/
def rivalled : System := { admitted {} with rival := some "i" }

theorem refused_leaves_no_trace_rivalled :
    ∃ t, (Operation.move "i" (.str "B") {}).answer Run.publish rivalled =
        .error (.raised (.overtaken "i" 1 2)) t ∧
      (t.items.get? "i").map (fun item => (item.status, item.version)) = some ("A", 2) ∧
      t.automation = rivalled.automation ∧ t.delivered = rivalled.delivered ∧
      t.held = rivalled.held := by
  have hrun : (match (Operation.move "i" (.str "B") {}).answer Run.publish rivalled with
      | .error (.raised (.overtaken id expected actual)) t =>
        some (id, expected, actual,
          (t.items.get? "i").map fun item => (item.status, item.version))
      | _ => none) = some ("i", 1, 2, some ("A", 2)) := by decide +kernel
  split at hrun
  · rename_i id expected actual t hanswer
    have hinTime : rivalled.settings.deliversTooLong = false := by decide +kernel
    obtain ⟨rfl, rfl, rfl, hitem⟩ : id = "i" ∧ expected = 1 ∧ actual = 2 ∧
        (t.items.get? "i").map (fun item => (item.status, item.version)) = some ("A", 2) := by
      simpa using hrun
    obtain ⟨-, hautomation, -, -, -, -, hdelivered, hheld⟩ :=
      refused_leaves_no_trace (.inl rfl) rfl hinTime hanswer
    exact ⟨t, hanswer, hitem, hautomation, hdelivered, hheld⟩
  · cases hrun

/-- A system in which the sample team is active, and subscribers have more time than can be waited
for. -/
def unhurried : System :=
  System.through { settings := { subscriberTimeout := .ofQuotient 10000000000 1 } }
    (sampleSession [])

/-- There, the requests for an item and for its move raise that the calls cannot be waited for,
though the item is created and moved, and both events are delivered. -/
theorem refused_leaves_traces :
    ∃ t u, (Operation.create { team := "t", id := some "i" }).answer Run.publish unhurried =
        .error (.raised .budgetTooLong) t ∧
      (Operation.move "i" (.str "B") {}).answer Run.publish t =
        .error (.raised .budgetTooLong) u ∧
      (unhurried.items.keys, t.items.keys) = ([], ["i"]) ∧
      (u.items.get? "i").map (·.status) = some "B" ∧
      unhurried.delivered.length < t.delivered.length ∧
      t.delivered.length < u.delivered.length := by
  have hrun : (match (Operation.create { team := "t", id := some "i" }).answer Run.publish
        unhurried with
      | .error (.raised .budgetTooLong) t =>
        match (Operation.move "i" (.str "B") {}).answer Run.publish t with
        | .error (.raised .budgetTooLong) u =>
          decide ((unhurried.items.keys, t.items.keys) = ([], ["i"]) ∧
            (u.items.get? "i").map (·.status) = some "B" ∧
            unhurried.delivered.length < t.delivered.length ∧
            t.delivered.length < u.delivered.length)
        | _ => false
      | _ => false) = true := by decide +kernel
  split at hrun
  · rename_i t hcreate
    split at hrun
    · rename_i u hmove
      exact ⟨t, u, hcreate, hmove, of_decide_eq_true hrun⟩
    · cases hrun
  · cases hrun

end Stageflow
