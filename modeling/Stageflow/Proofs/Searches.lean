import Mathlib.Data.Finset.Card
import Stageflow.Proofs.Reach

/-!
# Searches with a queue

What moves reach can be found status by status: the first of a queue is found, and its destinations
are queued behind the others. A status may be queued more than once and is passed over when it comes
up again, so the queue can grow while the search goes on. What falls is the number of statuses that
have still to be found, and where that stays, the length of the queue.

## Main statements

* `Search.exists_ends` — every search on every table comes to an end.
* `Search.Sound.turn`, `Search.Sound.mem_iff` — what a turn keeps, and so what a search finds.
* `Search.exists_ends_reachable` — a search from one status finds what is reached.
-/

namespace Stageflow

/-- A search: the statuses that were found, and the queue of those to look at. -/
structure Search where
  found : List String := []
  queue : List String
  deriving Repr

namespace Search

/-- One turn of a search: the first of the queue is found, and those of its destinations are queued
that have not been found. A status that was found before is passed over. -/
def turn? (edges : Edges) : Search → Option Search
  | ⟨_, []⟩ => none
  | ⟨found, status :: queue⟩ =>
    if status ∈ found then some ⟨found, queue⟩
    else
      let found := found ++ [status]
      some ⟨found, queue ++ (edges.destinations status).filter (· ∉ found)⟩

/-- Whether a search comes to an end, with some statuses found. -/
inductive Ends (edges : Edges) : Search → List String → Prop
  | rest {s : Search} (h : s.turn? edges = none) : Ends edges s s.found
  | turn {s t : Search} {found : List String} (h : s.turn? edges = some t)
    (ends : Ends edges t found) : Ends edges s found

variable {edges : Edges} {s t : Search} {found : List String} {start status : String}

theorem turn?_eq_none : s.turn? edges = none ↔ s.queue = [] := by
  obtain ⟨found, _ | ⟨status, queue⟩⟩ := s
  · simp [turn?]
  · simp only [turn?, reduceCtorEq, iff_false]
    split <;> simp

/-- What a turn comes to: the first of the queue was found before, or it is found now. -/
theorem turn?_eq_some (h : s.turn? edges = some t) :
    ∃ status queue, s.queue = status :: queue ∧
      ((status ∈ s.found ∧ t = ⟨s.found, queue⟩) ∨
        (status ∉ s.found ∧ t = ⟨s.found ++ [status],
          queue ++ (edges.destinations status).filter (· ∉ s.found ++ [status])⟩)) := by
  obtain ⟨found, _ | ⟨status, queue⟩⟩ := s
  · cases h
  · refine ⟨status, queue, rfl, ?_⟩
    simp only [turn?] at h
    split at h
    · exact .inl ⟨‹_›, (Option.some.inj h).symm⟩
    · exact .inr ⟨‹_›, (Option.some.inj h).symm⟩

/-! ## Termination -/

/-- The statuses that a search has still to find, or may come to. -/
def pending (edges : Edges) (s : Search) : Finset String :=
  (s.queue ++ edges.targets).toFinset \ s.found.toFinset

theorem mem_pending : status ∈ s.pending edges ↔
    (status ∈ s.queue ∨ status ∈ edges.targets) ∧ status ∉ s.found := by
  simp [pending]

/-- A turn leaves fewer statuses pending, or the same ones and a shorter queue. -/
theorem turn?_falls (h : s.turn? edges = some t) :
    (t.pending edges).card < (s.pending edges).card ∨
      t.pending edges = s.pending edges ∧ t.queue.length < s.queue.length := by
  obtain ⟨status, queue, hqueue, ⟨hfound, rfl⟩ | ⟨hnew, rfl⟩⟩ := turn?_eq_some h
  · refine .inr ⟨Finset.ext fun other => ?_, by simp [hqueue]⟩
    simp only [mem_pending, hqueue, List.mem_cons]
    grind
  · refine .inl (Finset.card_lt_card ⟨fun other hother => ?_, fun hsubset => ?_⟩)
    · have htarget : other ∈ edges.destinations status → other ∈ edges.targets :=
        Edges.mem_targets_of_steps
      simp only [mem_pending, hqueue, List.mem_cons, List.mem_append, List.mem_filter] at hother ⊢
      grind
    · have hpending : status ∈ s.pending edges := mem_pending.2 ⟨by simp [hqueue], hnew⟩
      simpa [mem_pending] using hsubset hpending

/-- Every search on every table comes to an end. -/
theorem exists_ends (edges : Edges) (s : Search) : ∃ found, Ends edges s found := by
  cases h : s.turn? edges with
  | none => exact ⟨s.found, .rest h⟩
  | some t =>
    obtain ⟨found, hends⟩ := exists_ends edges t
    exact ⟨found, .turn h hends⟩
termination_by ((s.pending edges).card, s.queue.length)
decreasing_by
  obtain hless | ⟨hsame, hless⟩ := turn?_falls h
  · exact .left _ _ hless
  · exact hsame ▸ .right _ hless

/-! ## What is found -/

/-- What holds of a search from one status at every turn: that status has come up, whatever has come
up is reached from it, and where a found status leads to has come up. -/
structure Sound (edges : Edges) (start : String) (s : Search) : Prop where
  begun : start ∈ s.found ++ s.queue
  reached : ∀ status ∈ s.found ++ s.queue, Relation.ReflTransGen edges.Steps start status
  closed : ∀ source ∈ s.found, ∀ target, edges.Steps source target → target ∈ s.found ++ s.queue

theorem sound_start (edges : Edges) (start : String) : Sound edges start { queue := [start] } where
  begun := by simp
  reached status h := by
    obtain rfl : status = start := by simpa using h
    exact .refl
  closed := by simp

/-- A turn keeps a search sound. -/
theorem Sound.turn (hs : Sound edges start s) (h : s.turn? edges = some t) :
    Sound edges start t := by
  obtain ⟨status, queue, hqueue, ⟨hfound, rfl⟩ | ⟨hnew, rfl⟩⟩ := turn?_eq_some h
  · have hsame (other : String) : other ∈ s.found ++ queue ↔ other ∈ s.found ++ s.queue := by
      grind
    constructor
    · exact (hsame start).2 hs.begun
    · exact fun other hother => hs.reached other ((hsame other).1 hother)
    · exact fun source hsource target hstep =>
        (hsame target).2 (hs.closed source hsource target hstep)
  · -- what comes up now are the destinations of the status that is found
    have hcomes (other : String) : other ∈ s.found ++ [status] ++
        (queue ++ (edges.destinations status).filter (· ∉ s.found ++ [status])) ↔
          other ∈ s.found ++ s.queue ∨ edges.Steps status other := by
      simp only [hqueue, Edges.Steps, List.mem_append, List.mem_filter, List.mem_cons]
      grind
    constructor
    · exact (hcomes start).2 (.inl hs.begun)
    · intro other hother
      obtain hold | hstep := (hcomes other).1 hother
      · exact hs.reached other hold
      · exact (hs.reached status (by simp [hqueue])).tail hstep
    · intro source hsource target hstep
      obtain hold | hsource := List.mem_append.1 hsource
      · exact (hcomes target).2 (.inl (hs.closed source hold target hstep))
      · obtain rfl := List.mem_singleton.1 hsource
        exact (hcomes target).2 (.inr hstep)

/-- A sound search finds exactly what is reached. -/
theorem Sound.mem_iff (hs : Sound edges start s) (h : Ends edges s found) :
    status ∈ found ↔ Relation.ReflTransGen edges.Steps start status := by
  induction h with
  | @rest s hrest =>
    have hfound : s.found ++ s.queue = s.found := by simp [turn?_eq_none.1 hrest]
    obtain ⟨begun, reached, closed⟩ := hs
    rw [hfound] at begun reached closed
    constructor
    · exact reached status
    · intro hchain
      induction hchain with
      | refl => exact begun
      | tail _ hstep ih => exact closed _ ih _ hstep
  | turn hturn _ ih => exact ih (hs.turn hturn)

/-- The search from a status comes to an end on every table, and finds what is reached from it. -/
theorem exists_ends_reachable (edges : Edges) (start : String) :
    ∃ found, Ends edges { queue := [start] } found ∧
      ∀ status, status ∈ found ↔ status ∈ edges.reachable start := by
  obtain ⟨found, hends⟩ := exists_ends edges { queue := [start] }
  refine ⟨found, hends, fun status => ?_⟩
  rw [(sound_start edges start).mem_iff hends, Edges.mem_reachable]

end Search

end Stageflow
