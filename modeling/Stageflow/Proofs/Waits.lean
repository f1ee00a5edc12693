import Stageflow.Proofs.Outcomes
import Stageflow.System.Cascade

/-!
# Waiting for calls

A publisher that cannot wait for the calls of its event has handed the event over all the same, and
what it raises then changes nothing. So what holds of handing an event over holds of publishing it.
-/

namespace Stageflow.Run

variable {I H : System → Prop} {s : System} {announce : Event → Run Unit} {event : Event}

theorem keeps_waitUnless {refused : Bool} : Keeps I (waitUnless refused) := by
  unfold waitUnless
  split
  · exact .raise
  · exact .pure

theorem stays_waitUnless {refused : Bool} : Stays I H (waitUnless refused) := by
  unfold waitUnless
  split
  · exact .raise
  · exact .pure

theorem keeps_publishWith_of_handOver (h : Keeps I (handOver announce event)) :
    Keeps I (publishWith announce event) :=
  .bind .get fun _ => .bind h fun _ => keeps_waitUnless

theorem stays_publishWith_of_handOver (h : Stays I H (handOver announce event)) :
    Stays I H (publishWith announce event) :=
  .bind .get fun _ => .bind h fun _ => stays_waitUnless

theorem leads_publishWith_of_handOver (h : Leads I (handOver announce event) s fun _ t => I t) :
    Leads I (publishWith announce event) s fun _ t => I t := by
  simp only [publishWith, leads_bind, leads_get]
  exact h.mono fun _ t ht => keeps_waitUnless t ht

theorem ends_publishWith_of_handOver (h : Ends I H (handOver announce event) s fun _ t => I t) :
    Ends I H (publishWith announce event) s fun _ t => I t := by
  simp only [publishWith, ends_bind, ends_get]
  exact h.mono fun _ t ht => stays_waitUnless t ht

end Stageflow.Run
