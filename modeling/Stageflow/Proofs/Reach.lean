import Mathlib.Logic.Relation
import Stageflow.Proofs.Decided

/-!
# What moves reach

Following a table of moves finds exactly the statuses that some chain of moves leads to, in whatever
order the moves are listed and whether or not they go round in circles: what has been seen is closed
under the moves from everything but the frontier, and the fuel counts the statuses still to be seen.

## Main statements

* `Edges.mem_reachable` — what is reached.
* `Edges.leadsOver_iff` — when a chain leads to a goal over some waypoints only.
-/

namespace Stageflow

namespace Edges

variable {edges : Edges} {seen frontier waypoints : List String} {start goal status : String}

/-- Whether a table has a move from one status to another. -/
def Steps (edges : Edges) (source target : String) : Prop := target ∈ edges.destinations source

/-- A path of one or more moves on which every status in between is a waypoint. -/
inductive Path (edges : Edges) (waypoint : String → Prop) : String → String → Prop
  | move {source target : String} (step : edges.Steps source target) :
    Path edges waypoint source target
  | pass {source between target : String} (step : edges.Steps source between)
    (passes : waypoint between) (rest : Path edges waypoint between target) :
    Path edges waypoint source target

theorem Path.imp {P Q : String → Prop} (hPQ : ∀ s, P s → Q s) (h : edges.Path P start goal) :
    edges.Path Q start goal := by
  induction h with
  | move step => exact .move step
  | pass step passes _ ih => exact .pass step (hPQ _ passes) ih

/-! ## The search -/

theorem mem_fresh : status ∈ edges.fresh seen frontier ↔
    (∃ source ∈ frontier, edges.Steps source status) ∧ status ∉ seen := by
  simp [fresh, Steps]

/-- The statuses that some move leads to, with repetitions. -/
def targets (edges : Edges) : List String := edges.flatMap (·.2)

theorem mem_targets_of_steps {source : String} (h : edges.Steps source status) :
    status ∈ edges.targets := by
  unfold Steps destinations at h
  cases hget : edges.get? source with
  | none => simp [hget] at h
  | some found =>
    rw [hget, Option.getD_some] at h
    exact List.mem_flatMap.2 ⟨_, Table.mem_of_get? hget, h⟩

/-- The targets that have not been seen. -/
def unseen (edges : Edges) (seen : List String) : List String :=
  edges.targets.filter fun s => !seen.contains s

/-- Whatever is seen for the first time leaves fewer targets unseen. -/
theorem length_unseen_append {new : List String} (htarget : status ∈ edges.targets)
    (hunseen : status ∉ seen) (hnew : status ∈ new) :
    (edges.unseen (seen ++ new)).length < (edges.unseen seen).length := by
  have hfilter : edges.unseen (seen ++ new) =
      (edges.unseen seen).filter fun s => !new.contains s := by
    simp [unseen, List.filter_filter, Bool.and_comm]
  rw [hfilter, List.length_filter_lt_length_iff_exists]
  exact ⟨status, by simp [unseen, htarget, hunseen], by simp [hnew]⟩

/-- The search keeps what has been seen, and ends with everything closed under the moves. -/
theorem spread_closed {fuel : Nat}
    (closed : ∀ s ∈ seen, s ∉ frontier → ∀ t, edges.Steps s t → t ∈ seen)
    (enough : (edges.unseen seen).length < fuel) :
    seen ⊆ edges.spread fuel seen frontier ∧
      ∀ s ∈ edges.spread fuel seen frontier, ∀ t, edges.Steps s t →
        t ∈ edges.spread fuel seen frontier := by
  induction fuel generalizing seen frontier with
  | zero => exact absurd enough (Nat.not_lt_zero _)
  | succ fuel ih =>
    -- a move from what has been seen leads to what has been seen, or to something new
    have hstep {s t : String} (hs : s ∈ seen) (hmove : edges.Steps s t) :
        t ∈ seen ∨ t ∈ edges.fresh seen frontier := by
      by_cases ht : t ∈ seen
      · exact .inl ht
      · by_cases hfrontier : s ∈ frontier
        · exact .inr (mem_fresh.2 ⟨⟨s, hfrontier, hmove⟩, ht⟩)
        · exact .inl (closed s hs hfrontier t hmove)
    unfold spread
    dsimp only
    split
    · rename_i hempty
      rw [List.isEmpty_iff] at hempty
      refine ⟨List.Subset.refl _, fun s hs t hmove => ?_⟩
      simpa [hempty] using hstep hs hmove
    · rename_i hsome
      obtain ⟨first, hfirst⟩ := List.exists_mem_of_ne_nil _ (by simpa using hsome)
      obtain ⟨⟨source, -, hmove⟩, hunseen⟩ := mem_fresh.1 hfirst
      have hless := length_unseen_append (mem_targets_of_steps hmove) hunseen hfirst
      have hclosed : ∀ s ∈ seen ++ edges.fresh seen frontier, s ∉ edges.fresh seen frontier →
          ∀ t, edges.Steps s t → t ∈ seen ++ edges.fresh seen frontier := by
        intro s hs hnew t hmove
        obtain hs | hs := List.mem_append.1 hs
        · exact List.mem_append.2 (hstep hs hmove)
        · exact absurd hs hnew
      obtain ⟨hkept, hspread⟩ :=
        ih hclosed (Nat.lt_of_lt_of_le hless (Nat.le_of_lt_succ enough))
      exact ⟨List.Subset.trans (List.subset_append_left _ _) hkept, hspread⟩

/-- A status is reached exactly if a chain of moves leads to it. -/
theorem mem_reachable :
    status ∈ edges.reachable start ↔ Relation.ReflTransGen edges.Steps start status := by
  constructor
  · have hcarries : edges.Carries fun s => Relation.ReflTransGen edges.Steps start s :=
      fun source hsource target htarget => hsource.tail htarget
    exact hcarries.reachable .refl status
  · have henough : (edges.unseen [start]).length < (edges.flatMap (·.2)).length + 1 :=
      Nat.lt_succ_of_le (List.length_filter_le ..)
    obtain ⟨hstart, hclosed⟩ := spread_closed (fun s hs hnot => absurd hs hnot) henough
    intro h
    induction h with
    | refl => exact hstart (List.mem_singleton_self start)
    | tail _ hmove ih => exact hclosed _ ih _ hmove

/-! ## Waypoints -/

theorem steps_onto {source target : String} :
    (edges.onto waypoints).Steps source target ↔
      edges.Steps source target ∧ target ∈ waypoints := by
  unfold Steps destinations
  rw [get?_onto]
  cases edges.get? source <;> simp

/-- A chain leads to a goal over some waypoints exactly if there is a path over them. -/
theorem leadsOver_iff :
    edges.leadsOver waypoints start goal ↔ edges.Path (· ∈ waypoints) start goal := by
  have hreach : edges.leadsOver waypoints start goal ↔
      ∃ s, Relation.ReflTransGen (edges.onto waypoints).Steps start s ∧ edges.Steps s goal := by
    simp [leadsOver, allows, mem_reachable, Steps]
  rw [hreach]
  clear hreach
  constructor
  · rintro ⟨last, hchain, hgoal⟩
    induction hchain using Relation.ReflTransGen.head_induction_on with
    | refl => exact .move hgoal
    | head hmove _ ih =>
      obtain ⟨hstep, hwaypoint⟩ := steps_onto.1 hmove
      exact .pass hstep hwaypoint ih
  · intro h
    induction h with
    | move step => exact ⟨_, .refl, step⟩
    | pass step passes _ ih =>
      obtain ⟨last, hchain, hgoal⟩ := ih
      exact ⟨last, .head (steps_onto.2 ⟨step, passes⟩) hchain, hgoal⟩

end Edges

end Stageflow
