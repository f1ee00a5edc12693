import Stageflow.Item.Change
import Stageflow.Proofs.Results

/-!
# Decided moves

A decided move leads along the table of moves, directly or over a chain of it, and leaves a stage
only through its open gate.
-/

namespace Stageflow

/-! ## Chains of moves -/

namespace Edges

variable {edges : Edges} {P : String → Prop}

/-- Whether a property of statuses is handed on by the moves of a table. -/
def Carries (edges : Edges) (P : String → Prop) : Prop :=
  ∀ source, P source → ∀ target ∈ edges.destinations source, P target

theorem get?_onto (edges : Edges) (waypoints : List String) (status : String) :
    (edges.onto waypoints).get? status =
      (edges.get? status).map (·.filter waypoints.contains) := by
  induction edges with
  | nil => rfl
  | cons p rest ih =>
    by_cases hp : p.1 = status
    · simp [Edges.onto, Table.get?, hp]
    · simpa [Edges.onto, Table.get?, hp] using ih

theorem Carries.onto (h : edges.Carries P) (waypoints : List String) :
    (edges.onto waypoints).Carries P := by
  intro source hsource target htarget
  refine h source hsource target ?_
  unfold Edges.destinations at htarget ⊢
  rw [get?_onto] at htarget
  cases hget : edges.get? source with
  | none => simp [hget] at htarget
  | some targets =>
    simp only [hget, Option.map_some, Option.getD_some] at htarget ⊢
    exact (List.mem_filter.1 htarget).1

theorem Carries.spread (h : edges.Carries P) (fuel : Nat) {seen frontier : List String}
    (hseen : ∀ s ∈ seen, P s) (hfrontier : ∀ s ∈ frontier, P s) :
    ∀ s ∈ edges.spread fuel seen frontier, P s := by
  induction fuel generalizing seen frontier with
  | zero => exact hseen
  | succ fuel ih =>
    have hnew : ∀ s ∈ edges.fresh seen frontier, P s := by
      intro s hs
      simp only [Edges.fresh, List.mem_filter, List.mem_eraseDups, List.mem_flatMap] at hs
      obtain ⟨⟨source, hsource, htarget⟩, -⟩ := hs
      exact h source (hfrontier source hsource) s htarget
    unfold Edges.spread
    dsimp only
    split
    · exact hseen
    · refine ih (fun s hs => ?_) hnew
      obtain hs | hs := List.mem_append.1 hs
      · exact hseen s hs
      · exact hnew s hs

/-- What moves hand on holds of everything that is reached. -/
theorem Carries.reachable (h : edges.Carries P) {start : String} (hstart : P start) :
    ∀ s ∈ edges.reachable start, P s :=
  h.spread _ (by simpa using hstart) (by simpa using hstart)

theorem Carries.leadsOver (h : edges.Carries P) {waypoints : List String} {start goal : String}
    (hstart : P start) (hleads : edges.leadsOver waypoints start goal) : P goal := by
  obtain ⟨s, hs, hgoal⟩ := List.any_eq_true.1 hleads
  refine h s ((h.onto waypoints).reachable hstart s hs) goal ?_
  simpa [Edges.allows] using hgoal

end Edges

namespace Workflow

variable {w : Workflow} {item : Item} {target : Json}

/-- The route to a named status is a move of the table. -/
theorem routeTo_allows {status : String} {route : Route} (h : w.routeTo item status = .ok route) :
    w.edges.allows item.status route.target := by
  unfold routeTo at h
  split at h
  · cases h
  · split at h
    · rename_i hallows
      cases h
      exact hallows
    · cases h

/-- The route to the next stage is a move of the table, or a chain of moves. -/
theorem routeAhead_leads {route : Route} (h : w.routeAhead item = .ok route) :
    w.edges.allows item.status route.target ∨
      ∃ waypoints, w.edges.leadsOver waypoints item.status route.target := by
  unfold routeAhead at h
  obtain ⟨current, -, h⟩ := bind_eq_ok.1 h
  obtain ⟨behind, -, h⟩ := bind_eq_ok.1 h
  obtain ⟨ahead, -, h⟩ := bind_eq_ok.1 h
  split at h
  · cases h
  · dsimp only at h
    split at h
    · rename_i hleads
      cases h
      obtain hallows | hover := Bool.or_eq_true_iff.1 hleads
      · exact .inl hallows
      · exact .inr ⟨_, hover⟩
    · cases h

/-- A route leads along a move of the table, or over a chain of moves. -/
theorem route_leads {route : Route} (h : w.route item target = .ok route) :
    w.edges.allows item.status route.target ∨
      ∃ waypoints, w.edges.leadsOver waypoints item.status route.target := by
  unfold Workflow.route at h
  split at h
  · split at h
    · exact routeAhead_leads h
    · exact .inl (routeTo_allows h)
  · cases h

/-- What the moves of the table hand on, a route hands on. -/
theorem route_carries {P : String → Prop} (hP : w.edges.Carries P) {route : Route}
    (h : w.route item target = .ok route) (hstatus : P item.status) : P route.target := by
  obtain hallows | ⟨waypoints, hleads⟩ := route_leads h
  · exact hP _ hstatus _ (by simpa [Edges.allows] using hallows)
  · exact hP.leadsOver hstatus hleads

/-- A decided move goes along its route between the stages of its statuses, and leaves a stage only
where nothing stands against it. -/
theorem decide_ok {move : Move} (h : w.decide item target = .ok move) :
    w.route item target = .ok move.route ∧ w.stageOf item.status = .ok move.source ∧
      w.stageOf move.route.target = .ok move.target ∧
      (move.source.id = move.target.id ∨ w.checkLeave item move.source = .ok ()) := by
  unfold Workflow.decide at h
  obtain ⟨route, hroute, h⟩ := bind_eq_ok.1 h
  obtain ⟨source, hsource, h⟩ := bind_eq_ok.1 h
  obtain ⟨goal, hgoal, h⟩ := bind_eq_ok.1 h
  rw [mapError_eq_ok] at hsource hgoal
  split at h
  · rename_i hsame
    cases h
    exact ⟨hroute, hsource, hgoal, .inl hsame⟩
  · obtain ⟨_, hleave, h⟩ := bind_eq_ok.1 h
    cases h
    exact ⟨hroute, hsource, hgoal, .inr hleave⟩

end Workflow

end Stageflow
