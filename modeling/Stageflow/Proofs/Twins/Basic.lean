import Stageflow.Proofs.Applied
import Stageflow.Proofs.Outcomes

/-!
# Computations in step

Two systems are in step if they differ at most in what is behind the scenes: the documents, the
versions of workflows and what was noted before. `Twin` says of two computations that they end alike
from systems in step, and leave systems in step behind.
-/

namespace Stageflow

/-- On what terms two runs go in step: which versions of which teams an item may be bound to, at
which depths automation reacts to events, and at which depths actions ask for moves. -/
structure Pact where
  bound : String → String → Int → Prop
  reacts : Int → Prop
  asks : Int → Prop
  deepens : ∀ {depth}, reacts depth → asks (depth + 1)
  mixes : ∀ {id team team' version version'}, bound id team version → bound id team' version' →
    bound id team version'

/-- A system with what is behind the scenes of another one, and with some notices since. -/
def System.behind (s base : System) (notices : List Notice) : System :=
  { s with
    source := base.source, shelf := base.shelf, documentVersions := base.documentVersions
    registry := base.registry, journal := notices ++ base.journal }

namespace Pact

variable {pact : Pact}

/-- Whether a notice tells of automation only where it reacts, and of what actions ask for only
where they do. -/
def Fits (pact : Pact) : Notice → Prop
  | .asked _ _ actor => pact.asks actor.depth
  | .handled event => pact.reacts event.depth
  | .armed watch | .promoted watch _ => pact.reacts watch.trigger.depth
  | .broken _ signal => pact.reacts signal.depth
  | _ => True

/-- Whether an item is bound as it may be. -/
def Takes (pact : Pact) (item : Item) : Prop := pact.bound item.id item.team item.workflowVersion

/-- Whether a move is of an item that is bound as it may be. -/
def Tells (pact : Pact) (m : Moved) : Prop := pact.bound m.item m.team m.workflowVersion

/-- What is true of a system that keeps to a pact since it started from another one, with what it
noted since. -/
structure Holds (pact : Pact) (base : System) (inside : Bool) (u : System)
    (notices : List Notice) : Prop where
  settings : u.settings = base.settings
  inside : u.runner.inside = inside
  conducts : u.runner.conducts = base.runner.conducts
  alone : base.rival = none → u.rival = none
  known : ∀ id, base.items.has id → u.items.has id
  items : ∀ id item, u.items.get? id = some item → item.id = id ∧ pact.Takes item
  tracks : ∀ p ∈ u.metrics.tracks, pact.bound p.1 p.2.team p.2.workflowVersion
  watches : ∀ p ∈ u.automation.watches, pact.reacts p.2.trigger.depth
  notices : ∀ notice ∈ notices, pact.Fits notice

theorem Holds.limit {base u : System} {inside : Bool} {notices : List Notice}
    (h : pact.Holds base inside u notices) :
    u.settings.maxCascadeDepth = base.settings.maxCascadeDepth := by
  rw [h.settings]

/-- Whether two systems are in step since they started, on the terms of a pact. -/
def InStep (pact : Pact) (s₀ t₀ : System) (inside : Bool) (s t : System) : Prop :=
  ∃ u notices, s = u.behind s₀ notices ∧ t = u.behind t₀ notices ∧
    pact.Holds s₀ inside u notices

theorem InStep.eq {s₀ s t : System} {inside : Bool} (h : pact.InStep s₀ s₀ inside s t) : s = t := by
  obtain ⟨u, notices, rfl, rfl, -⟩ := h
  rfl

end Pact

namespace Run

variable {α β : Type} {I : System → System → Prop} {H : Prop} {P : α → Prop} {Q : β → Prop}

/-- Two ends of computations that are alike: the same value, of which `P` holds, the same fault, or
no end, where `H` says that this may be. -/
inductive Alike (I : System → System → Prop) (H : Prop) (P : α → Prop) :
    EStateM.Result Halt System α → EStateM.Result Halt System α → Prop
  | ok {a : α} {s t : System} (value : P a) (related : I s t) : Alike I H P (.ok a s) (.ok a t)
  | raised {fault : Fault} {s t : System} (related : I s t) :
      Alike I H P (.error (.raised fault) s) (.error (.raised fault) t)
  | hung {s t : System} (may : H) (related : I s t) :
      Alike I H P (.error .hung s) (.error .hung t)

theorem Alike.after {x y : Run α} {s t : System} (h : Alike I H P (x s) (y t)) :
    I (x.after s) (y.after t) := by
  unfold Run.after
  generalize x s = r, y t = r' at h
  cases h with
  | ok _ related | raised related | hung _ related => exact related

/-- Where related systems are the same, so are ends that are alike. -/
theorem Alike.eq (same : ∀ s t, I s t → s = t) {r r' : EStateM.Result Halt System α}
    (h : Alike I H P r r') : r = r' := by
  cases h with
  | ok _ related | raised related | hung _ related => rw [same _ _ related]

/-- How a computation ends that is its own twin. -/
theorem Alike.ends {J : System → Prop} {x : Run α} {s : System} (h : Alike I H P (x s) (x s))
    (hJ : ∀ t, I t t → J t) (hH : ¬ H) : Ends J (fun _ => False) x s fun _ => J := by
  unfold Ends
  generalize x s = r at h
  cases h with
  | ok _ related | raised related => exact hJ _ related
  | hung may _ => exact hH may

theorem Alike.leads {J : System → Prop} {x : Run α} {s : System} (h : Alike I H P (x s) (x s))
    (hJ : ∀ t, I t t → J t) : Leads J x s fun _ => J := by
  unfold Leads
  generalize x s = r at h
  cases h with
  | ok _ related | raised related | hung _ related => exact hJ _ related

/-- Whether two computations end alike from related systems, in related systems. -/
def Twin (I : System → System → Prop) (H : Prop) (P : α → Prop) (x y : Run α) : Prop :=
  ∀ s t, I s t → Alike I H P (x s) (y t)

/-- Two computations are twins, whatever their value. -/
abbrev Twins (I : System → System → Prop) (H : Prop) (x y : Run α) : Prop :=
  Twin I H (fun _ => True) x y

namespace Twin

protected theorem pure {a : α} (h : P a) : Twin I H P (pure a) (pure a) :=
  fun _ _ hI => .ok h hI

protected theorem raise {fault : Fault} : Twin I H P (raise fault) (raise fault) :=
  fun _ _ hI => .raised hI

protected theorem hung (h : H) : Twin I H P (throw .hung) (throw .hung) := fun _ _ hI => .hung h hI

protected theorem ofExcept {x : Except Fault α} (h : ∀ a, x = .ok a → P a) :
    Twin I H P (ofExcept x) (ofExcept x) := by
  cases x with
  | ok a => exact .pure (h a rfl)
  | error fault => exact .raise

protected theorem ofReading {x : Except Defect α} : Twins I H (ofReading x) (ofReading x) := by
  cases x with
  | ok a => exact .pure trivial
  | error d => exact .raise

protected theorem bind {x y : Run α} {next next' : α → Run β} (h : Twin I H P x y)
    (hn : ∀ a, P a → Twin I H Q (next a) (next' a)) : Twin I H Q (x >>= next) (y >>= next') := by
  intro s t hI
  have hrun := h s t hI
  rw [bind_apply, bind_apply]
  generalize x s = r, y t = r' at hrun
  cases hrun with
  | ok value related => exact hn _ value _ _ related
  | raised related => exact .raised related
  | hung may related => exact .hung may related

protected theorem ite {c : Prop} [Decidable c] {x x' y y' : Run α}
    (hpos : c → Twin I H P x y) (hneg : ¬ c → Twin I H P x' y') :
    Twin I H P (if c then x else x') (if c then y else y') := by
  by_cases hc : c
  · simp only [hc, if_true]
    exact hpos hc
  · simp only [hc, if_false]
    exact hneg hc

/-- Both systems are read at once. -/
theorem get_bind {next next' : System → Run α}
    (hn : ∀ s t, I s t → Alike I H P (next s s) (next' t t)) :
    Twin I H P ((get : Run System) >>= next) ((get : Run System) >>= next') :=
  fun s t hI => hn s t hI

/-- What follows a reading does not depend on more than what was read. -/
theorem read {next next' : System → Run α}
    (hn : ∀ s t, I s t → Twin I H P (next s) (next' t)) :
    Twin I H P ((get : Run System) >>= next) ((get : Run System) >>= next') :=
  fun s t hI => hn s t hI s t hI

protected theorem modify {change change' : System → System}
    (h : ∀ s t, I s t → I (change s) (change' t)) : Twins I H (modify change) (modify change') :=
  fun s t hI => .ok trivial (h s t hI)

protected theorem attempt {x y : Run α} (h : Twin I H P x y) :
    Twin I H (fun result => ∀ a, result = .ok a → P a) (attempt x) (attempt y) := by
  intro s t hI
  have hrun := h s t hI
  rw [attempt_apply, attempt_apply]
  generalize x s = r, y t = r' at hrun
  cases hrun with
  | ok value related =>
    refine .ok (fun b hb => ?_) related
    cases hb
    exact value
  | raised related => exact .ok (fun _ h => nomatch h) related
  | hung may related => exact .hung may related

/-- Both computations are followed by a note, however they end. -/
theorem tryFinally_note {x y : Run α} {notice : Notice} (h : Twin I H P x y)
    (hn : Twins I H (note notice) (note notice)) :
    Twin I H P (tryFinally x (note notice)) (tryFinally y (note notice)) := by
  have hnoted {s t : System} (hI : I s t) :
      I { s with journal := notice :: s.journal } { t with journal := notice :: t.journal } :=
    (hn s t hI).after
  intro s t hI
  have hrun := h s t hI
  rw [tryFinally_apply, tryFinally_apply]
  generalize x s = r, y t = r' at hrun
  cases hrun with
  | ok value related => exact .ok value (hnoted related)
  | raised related => exact .raised (hnoted related)
  | hung may related => exact .hung may (hnoted related)

theorem forM {f g : α → Run PUnit} {xs : List α} (h : ∀ x ∈ xs, Twins I H (f x) (g x)) :
    Twins I H (xs.forM f) (xs.forM g) := by
  induction xs with
  | nil => exact .pure trivial
  | cons x xs ih => exact .bind (h x (by simp)) fun _ _ => ih fun y hy => h y (by simp [hy])

theorem mapM {f g : α → Run β} {xs : List α} (h : ∀ x ∈ xs, Twins I H (f x) (g x)) :
    Twins I H (xs.mapM f) (xs.mapM g) := by
  induction xs with
  | nil => exact .pure trivial
  | cons x xs ih =>
    rw [List.mapM_cons, List.mapM_cons]
    exact .bind (h x (by simp)) fun _ _ =>
      .bind (ih fun y hy => h y (by simp [hy])) fun _ _ => .pure trivial

theorem filterMapM {f g : α → Run (Option β)} {xs : List α}
    (h : ∀ x ∈ xs, Twins I H (f x) (g x)) : Twins I H (xs.filterMapM f) (xs.filterMapM g) := by
  induction xs with
  | nil => exact .pure trivial
  | cons x xs ih =>
    rw [List.filterMapM_cons, List.filterMapM_cons]
    refine .bind (h x (by simp)) fun y _ => ?_
    have hrest := ih fun y hy => h y (by simp [hy])
    cases y with
    | none => exact hrest
    | some y => exact .bind hrest fun _ _ => .pure trivial

end Twin

/-! ## Systems in step -/

variable {pact : Pact} {s₀ t₀ : System} {inside : Bool}

/-- Both systems change by the same change of what is before the scenes. -/
theorem twins_modify {change change' : System → System}
    (h : ∀ u notices, pact.Holds s₀ inside u notices →
      ∃ v, change (u.behind s₀ notices) = v.behind s₀ notices ∧
        change' (u.behind t₀ notices) = v.behind t₀ notices ∧
        pact.Holds s₀ inside v notices) :
    Twins (pact.InStep s₀ t₀ inside) H (modify change) (modify change') := by
  refine .modify ?_
  rintro _ _ ⟨u, notices, rfl, rfl, hu⟩
  obtain ⟨v, hs, ht, hv⟩ := h u notices hu
  exact ⟨v, notices, hs, ht, hv⟩

theorem twins_note {notice : Notice} (h : pact.Fits notice) :
    Twins (pact.InStep s₀ t₀ inside) H (note notice) (note notice) := by
  refine .modify ?_
  rintro _ _ ⟨u, notices, rfl, rfl, hu⟩
  exact ⟨u, notice :: notices, rfl, rfl,
    { hu with notices := List.forall_mem_cons.2 ⟨h, hu.notices⟩ }⟩

end Run

end Stageflow
