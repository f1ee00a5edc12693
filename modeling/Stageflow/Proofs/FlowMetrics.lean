import Stageflow.Proofs.Evolution.Session
import Stageflow.Proofs.Intake
import Stageflow.Proofs.Tables
import Stageflow.Proofs.Visits

/-!
# The flow that events describe

What is measured, as a function of all events so far. The events of an item make a journey, which
has visits, comes back to stages and is completed; the moves of a team are counted between statuses.
Metrics take in one event after another, of items in any order, and hold the journeys of all items.

## Main statements

* `Journey.move_track` — a track that takes in the next event of a journey is that of the longer
  one.
* `measures_flow` — metrics that took in events hold the journeys of all items, and the counts.
-/

namespace Stageflow

/-! ## Journeys -/

/-- Whether events are a journey of an item: the first one alone is its creation, and each other one
leaves the stage that the one before it entered. -/
def IsJourney : List Moved → Prop
  | [] => True
  | first :: later => first.source = none ∧ (∀ m ∈ later, m.source.isSome) ∧
    (first :: later).IsChain fun before m => m.sourceStage = some before.targetStage

namespace Journey

/-- Whether an event enters another stage than the one before it. -/
abbrev ChangesStage (before m : Moved) : Prop := before.targetStage ≠ m.targetStage

/-- The events of a journey that begin a visit: of those in a row that enter the same stage, the
first one. -/
def entries (events : List Moved) : List Moved := events.destutter ChangesStage

/-- The visits that entries begin: each one ends when the next one begins, and the last is open. -/
def visitsFrom : List Moved → List Visit
  | [] => []
  | [m] => [⟨m.targetStage, m.time, none⟩]
  | m :: next :: later => ⟨m.targetStage, m.time, some next.time⟩ :: visitsFrom (next :: later)

/-- Whether the event behind `k + 1` others changes the stage to one that was entered before. -/
def comesBack (events : List Moved) (k : Nat) : Bool :=
  match events[k]?, events[k + 1]? with
  | some before, some m => before.targetStage ≠ m.targetStage &&
    (events.take (k + 1)).any fun earlier => earlier.targetStage = m.targetStage
  | _, _ => false

/-- When a journey entered a terminal stage first, its creation apart. -/
def completedAt? (registry : Registry) (events : List Moved) : Option Instant :=
  (events.tail.find? fun m =>
    Run.isTerminalStage registry m.team m.workflowVersion m.targetStage).map (·.time)

/-- What a journey measures. -/
def track? (registry : Registry) (events : List Moved) : Option Track :=
  match events.head?, events.getLast? with
  | some first, some last => some {
      team := first.team
      workflowVersion := last.workflowVersion
      createdAt := first.time
      visits := visitsFrom (entries events)
      transitions := events.length - 1
      loopBacks := (List.range (events.length - 1)).countP (comesBack events)
      completedAt := completedAt? registry events }
  | _, _ => none

/-! ### One more event -/

variable {events : List Moved} {last m : Moved} {registry : Registry}

theorem destutter'_concat (first : Moved) (later : List Moved)
    (hlast : (first :: later).getLast? = some last) :
    (later ++ [m]).destutter' ChangesStage first =
      if last.targetStage = m.targetStage then later.destutter' ChangesStage first
      else later.destutter' ChangesStage first ++ [m] := by
  induction later generalizing first with
  | nil =>
    obtain rfl : first = last := by simpa using hlast
    by_cases h : first.targetStage = m.targetStage <;> simp [List.destutter', h]
  | cons next later ih =>
    rw [List.getLast?_cons_cons] at hlast
    by_cases hsame : first.targetStage = next.targetStage
    · rw [List.cons_append, List.destutter'_cons_neg _ (not_not.2 hsame),
        List.destutter'_cons_neg _ (not_not.2 hsame)]
      cases later with
      | nil =>
        obtain rfl : next = last := by simpa using hlast
        by_cases h : next.targetStage = m.targetStage <;> simp [List.destutter', hsame, h]
      | cons other later => exact ih first (by rwa [List.getLast?_cons_cons] at hlast ⊢)
    · rw [List.cons_append, List.destutter'_cons_pos _ hsame, List.destutter'_cons_pos _ hsame,
        ih next hlast]
      split <;> rfl

/-- One more event is an entry unless it stays in the stage of the last one. -/
theorem entries_concat (hlast : events.getLast? = some last) :
    entries (events ++ [m]) =
      if last.targetStage = m.targetStage then entries events else entries events ++ [m] := by
  cases events with
  | nil => cases hlast
  | cons first later => exact destutter'_concat first later hlast

theorem entries_ne_nil (h : events ≠ []) : entries events ≠ [] :=
  fun hnil => h ((List.destutter_eq_nil _).1 hnil)

/-- The stages of the entries are those that the events enter. -/
theorem mem_stage_entries (events : List Moved) (stage : String) :
    stage ∈ (entries events).map (·.targetStage) ↔ stage ∈ events.map (·.targetStage) := by
  induction events using List.reverseRecOn with
  | nil => rfl
  | append_singleton events m ih =>
    cases hlast : events.getLast? with
    | none => simp [List.getLast?_eq_none_iff.1 hlast, entries]
    | some last =>
      have hmem : last ∈ events := List.mem_of_getLast? hlast
      rw [entries_concat hlast]
      split <;> grind

theorem map_stage_visitsFrom (events : List Moved) :
    (visitsFrom events).map (·.stage) = events.map (·.targetStage) := by
  fun_induction visitsFrom <;> simp_all

/-- One more entry ends the open visit and begins one. -/
theorem visitsFrom_concat (h : events ≠ []) :
    visitsFrom (events ++ [m]) =
      Track.closeLast m.time (visitsFrom events) ++ [⟨m.targetStage, m.time, none⟩] := by
  fun_induction visitsFrom events with
  | case1 => exact absurd rfl h
  | case2 first => rfl
  | case3 first next later ih =>
    have hrest : visitsFrom (next :: later) ≠ [] := by cases later <;> simp [visitsFrom]
    obtain ⟨visit, visits, hvisits⟩ := List.exists_cons_of_ne_nil hrest
    have hnext := ih (List.cons_ne_nil _ _)
    rw [hvisits] at hnext ⊢
    simpa [visitsFrom, Track.closeLast] using hnext

/-- The stages of a journey's visits are those that its events enter. -/
theorem any_stage_visits {stage : String} :
    (visitsFrom (entries events)).any (·.stage = stage) = events.any (·.targetStage = stage) := by
  have hmem := mem_stage_entries events stage
  rw [← map_stage_visitsFrom] at hmem
  simp only [List.mem_map] at hmem
  rw [Bool.eq_iff_iff]
  simpa using hmem

/-- Coming back depends on the events so far. -/
theorem comesBack_concat {k : Nat} (h : k + 1 < events.length) :
    comesBack (events ++ [m]) k = comesBack events k := by
  unfold comesBack
  rw [List.getElem?_append_left (by omega), List.getElem?_append_left h,
    List.take_append_of_le_length (by omega)]

/-- One more event may come back once more. -/
theorem loopBacks_concat (hlast : events.getLast? = some last) :
    (List.range ((events ++ [m]).length - 1)).countP (comesBack (events ++ [m])) =
      if last.targetStage ≠ m.targetStage ∧ events.any (·.targetStage = m.targetStage) then
        (List.range (events.length - 1)).countP (comesBack events) + 1
      else (List.range (events.length - 1)).countP (comesBack events) := by
  obtain ⟨earlier, rfl⟩ := List.getLast?_eq_some_iff.1 hlast
  have hlength : (earlier ++ [last] ++ [m]).length - 1 = earlier.length + 1 := by simp
  have hlength' : (earlier ++ [last]).length - 1 = earlier.length := by simp
  have hbefore : (List.range earlier.length).countP (comesBack (earlier ++ [last] ++ [m])) =
      (List.range earlier.length).countP (comesBack (earlier ++ [last])) := by
    refine List.countP_congr fun k hk => ?_
    rw [comesBack_concat (by simpa using List.mem_range.1 hk)]
  have hnow : comesBack (earlier ++ [last] ++ [m]) earlier.length =
      (last.targetStage ≠ m.targetStage &&
        (earlier ++ [last]).any (·.targetStage = m.targetStage)) := by
    have htake : (earlier ++ [last] ++ [m]).take (earlier.length + 1) = earlier ++ [last] :=
      List.take_left' (by simp)
    simp only [comesBack, htake]
    simp
  rw [hlength, hlength', List.range_succ, List.countP_append, hbefore, List.countP_singleton, hnow]
  simp only [Bool.and_eq_true, decide_eq_true_eq]
  split <;> rfl

/-- One more event completes a journey that is not completed, if it enters a terminal stage. -/
theorem completedAt?_concat (h : events ≠ []) :
    completedAt? registry (events ++ [m]) =
      if Run.isTerminalStage registry m.team m.workflowVersion m.targetStage then
        (completedAt? registry events).orElse fun _ => some m.time
      else completedAt? registry events := by
  unfold completedAt?
  rw [List.tail_append_of_ne_nil h, List.find?_append]
  cases events.tail.find? _ <;> simp [List.find?_singleton, apply_ite]

/-- A track that takes in the next event of a journey is that of the longer one. -/
theorem move_track {track : Track} (h : track? registry events = some track)
    (hlast : events.getLast? = some last) (onward : m.sourceStage = some last.targetStage) :
    track? registry (events ++ [m]) = some (track.move m
      (Run.isTerminalStage registry m.team m.workflowVersion m.targetStage)) := by
  have hne : events ≠ [] := fun hnil => by simp [hnil] at hlast
  obtain ⟨first, hfirst⟩ := Option.isSome_iff_exists.1 (List.isSome_head?.2 hne)
  have hlater : (events ++ [m]).head? = some first := by simp [List.head?_append, hfirst]
  have hlength : (events ++ [m]).length - 1 = events.length - 1 + 1 := by
    have := List.length_pos_iff.2 hne
    simp only [List.length_append, List.length_singleton]
    omega
  have hback := loopBacks_concat (m := m) hlast
  have hvisits := visitsFrom_concat (m := m) (entries_ne_nil hne)
  obtain rfl : _ = track := by simpa only [track?, hfirst, hlast, Option.some.injEq] using h
  simp only [track?, hlater, List.getLast?_concat, hlength, completedAt?_concat hne,
    entries_concat hlast] at hback ⊢
  rw [hback]
  by_cases hsame : last.targetStage = m.targetStage
  · simp [hsame, Track.move, Track.enterStage, onward]
  · simp only [hsame, Track.move, Track.enterStage, onward, Option.some.injEq, if_false, hvisits,
      any_stage_visits, ne_eq, not_false_eq_true, true_and]

theorem map_enteredAt_visitsFrom (events : List Moved) :
    (visitsFrom events).map (·.enteredAt) = events.map (·.time) := by
  fun_induction visitsFrom <;> simp_all

/-- The times that are measured from are those of the events. -/
theorem times_of_track {track : Track} (h : track? registry events = some track) :
    (∃ m ∈ events, track.createdAt = m.time) ∧
      ∀ visit ∈ track.visits, ∃ m ∈ events, visit.enteredAt = m.time := by
  unfold track? at h
  split at h
  · rename_i first last hfirst hlast
    cases h
    refine ⟨⟨first, List.mem_of_head? hfirst, rfl⟩, fun visit hvisit => ?_⟩
    have htime := List.mem_map_of_mem (f := (·.enteredAt)) hvisit
    rw [map_enteredAt_visitsFrom] at htime
    obtain ⟨m, hm, heq⟩ := List.mem_map.1 htime
    exact ⟨m, (List.destutter_sublist ..).subset hm, heq.symm⟩
  · cases h

/-- A journey with events has a track. -/
theorem exists_track (registry : Registry) (hlast : events.getLast? = some last) :
    ∃ track, track? registry events = some track := by
  cases events with
  | nil => cases hlast
  | cons first later => exact Option.isSome_iff_exists.1 (by simp [track?, hlast])

/-- A journey of one event has the track that starts with it. -/
theorem start_track : track? registry [m] = some (.start m) := rfl

end Journey

/-- One more event makes a journey longer if it is the creation of an item that has none, and else
leaves the stage that was entered last. -/
theorem isJourney_concat {events : List Moved} {m : Moved} :
    IsJourney (events ++ [m]) ↔ IsJourney events ∧ match events.getLast? with
      | none => m.source = none
      | some last => m.source.isSome ∧ m.sourceStage = some last.targetStage := by
  cases events with
  | nil => simp [IsJourney]
  | cons first later =>
    rw [show IsJourney (first :: later ++ [m]) ↔ first.source = none ∧
      (∀ m' ∈ later ++ [m], m'.source.isSome) ∧ (first :: later ++ [m]).IsChain _ from Iff.rfl,
      List.isChain_append]
    cases hlast : (first :: later).getLast? with
    | none => simp at hlast
    | some last =>
      simp [IsJourney, or_imp, forall_and]
      tauto

/-- The events up to some point of a journey are one. -/
theorem IsJourney.of_append {before after : List Moved} (h : IsJourney (before ++ after)) :
    IsJourney before := by
  cases before with
  | nil => trivial
  | cons first later =>
    exact ⟨h.1, fun m hm => h.2.1 m (List.mem_append_left _ hm), h.2.2.left_of_append⟩

/-- One more event makes the journey of its item longer, and no other one. -/
theorem journey_concat (events : List Moved) (m : Moved) (item : String) :
    (events ++ [m]).filter (·.item = item) =
      if m.item = item then events.filter (·.item = item) ++ [m]
      else events.filter (·.item = item) := by
  by_cases h : m.item = item <;> simp [List.filter_append, h]

/-! ## Taking in events -/

namespace Run

variable {s : System} {announce : Event → Run Unit}

/-- Where alerts go nowhere, nothing comes of them. -/
theorem settle_silent (silent : s.sink = .none) (found : Metrics × Except Fault (List Signal)) :
    settle (deliverAlert announce) found s = ofExcept found.2 { s with metrics := found.1 } := by
  obtain ⟨metrics, result⟩ := found
  cases result with
  | error fault => rfl
  | ok alerts =>
    have halerts (rest : List Signal) : rest.forM (deliverAlert announce) { s with metrics } =
        .ok () { s with metrics } := by
      induction rest with
      | nil => rfl
      | cons alert rest ih =>
        have halert :
            deliverAlert announce alert { s with metrics } = .ok () { s with metrics } := by
          unfold deliverAlert
          rw [get_bind_apply]
          simp only [silent, ne_eq, not_true_eq_false, if_false]
          rfl
        rw [forM_cons_apply, halert]
        exact ih
    change (alerts.forM (deliverAlert announce) >>= fun _ => pure alerts) { s with metrics } = _
    rw [bind_apply, halerts]
    rfl

/-- Where alerts go nowhere, an event is taken in, and nothing else happens, with or without a
fault. -/
theorem measure_silent (silent : s.sink = .none) (m : Moved) :
    measure announce m s = (ofExcept (s.metrics.takeIn s.registry m).2 >>= fun _ => pure ())
      { s with metrics := (s.metrics.takeIn s.registry m).1 } := by
  unfold measure
  rw [measureWith_apply, bind_apply, bind_apply, settle_silent silent]

theorem after_measure_silent (silent : s.sink = .none) (m : Moved) :
    (measure announce m).after s =
      { s with metrics := (s.metrics.takeIn s.registry m).1 } := by
  unfold Run.after
  rw [measure_silent silent]
  cases (s.metrics.takeIn s.registry m).2 <;> rfl

/-- Where alerts go nowhere, events are taken in one after another. -/
theorem foldl_measure_silent (silent : s.sink = .none) (events : List Moved) :
    events.foldl (fun t m => (measure announce m).after t) s = { s with
      metrics := events.foldl (fun metrics m => (metrics.takeIn s.registry m).1) s.metrics } := by
  induction events generalizing s with
  | nil => rfl
  | cons m events ih =>
    rw [List.foldl_cons, after_measure_silent silent]
    exact ih silent

end Run

/-! ## The flow -/

namespace Metrics

variable {registry : Registry} {metrics : Metrics} {events : List Moved} {m : Moved}

/-- How often a team's items moved between two statuses. -/
def countOf (metrics : Metrics) (team : String) (statuses : String × String) : Nat :=
  (((metrics.counts.get? team).getD []).get? statuses).getD 0

/-- How often a team's items moved. -/
def movesOf (metrics : Metrics) (team : String) : Nat :=
  ((metrics.counts.get? team).getD []).values.sum

/-- The transitions of the items that a team has. -/
def transitionsOf (metrics : Metrics) (team : String) : Nat :=
  ((metrics.tracks.values.filter (·.team = team)).map (·.transitions)).sum

/-- Whether metrics hold the journeys of all items, and count the moves of all teams. Where the
events of an item all name its team, what is counted for a team are the transitions of its items. -/
structure Flows (registry : Registry) (events : List Moved) (metrics : Metrics) : Prop where
  tracks : ∀ item, metrics.tracks.get? item =
    Journey.track? registry (events.filter (·.item = item))
  counts : ∀ team source target, metrics.countOf team (source, target) =
    events.countP fun m => m.team = team ∧ m.source = some source ∧ m.target = target
  moves : ∀ team, metrics.movesOf team = events.countP fun m => m.team = team ∧ m.source.isSome
  transitions : (∀ m ∈ events, ∀ m' ∈ events, m.item = m'.item → m.team = m'.team) →
    ∀ team, metrics.movesOf team = metrics.transitionsOf team

theorem takeIn_created (created : m.source = none) :
    (metrics.takeIn registry m).1 =
      { metrics with tracks := metrics.tracks.put m.item (.start m) } := by
  simp [takeIn, recorded_created created]

theorem exists_takeIn_moved (registry : Registry) (metrics : Metrics) {source : String}
    (moved : m.source = some source) : ∃ alerted, (metrics.takeIn registry m).1 = {
      tracks := metrics.tracks.put m.item (metrics.moved registry m)
      counts := (metrics.count m.team source m.target).counts
      alerted } := by
  rw [takeIn, recorded_moved moved, if_pos rfl, check_eq]
  exact ⟨_, rfl⟩

/-- A counted move is one more between its statuses. -/
theorem countOf_count (team source target : String) (other : String) (statuses : String × String) :
    (metrics.count team source target).countOf other statuses =
      metrics.countOf other statuses +
        if team = other ∧ (source, target) = statuses then 1 else 0 := by
  unfold countOf count
  by_cases hteam : team = other
  · subst hteam
    by_cases hstatuses : (source, target) = statuses
    · subst hstatuses
      simp
    · simp [Table.get?_put_of_ne (Ne.symm hstatuses), hstatuses]
  · simp [Table.get?_put_of_ne (Ne.symm hteam), hteam]

/-- A counted move is one more of its team. -/
theorem movesOf_count (team source target : String) (other : String) :
    (metrics.count team source target).movesOf other =
      metrics.movesOf other + if team = other then 1 else 0 := by
  unfold movesOf count
  by_cases hteam : team = other
  · subst hteam
    have hsum := Table.sum_map_put (source, target)
      ((((metrics.counts.get? team).getD []).get? (source, target)).getD 0 + 1)
      ((metrics.counts.get? team).getD []) id
    simp only [List.map_id, Option.map_id, id_eq] at hsum
    simp only [Table.get?_put_self, Option.getD_some, if_true]
    omega
  · simp [Table.get?_put_of_ne (Ne.symm hteam), hteam]

/-- What a track adds to the transitions of a team. -/
def shareOf (team : String) (track : Track) : Nat :=
  if track.team = team then track.transitions else 0

theorem transitionsOf_eq (team : String) :
    metrics.transitionsOf team = (metrics.tracks.values.map (shareOf team)).sum := by
  unfold transitionsOf
  induction metrics.tracks.values with
  | nil => rfl
  | cons track rest ih =>
    by_cases h : track.team = team <;> simp [h, shareOf, ih]

/-- A move adds one to the transitions of the track's team. -/
theorem shareOf_move (team : String) (track : Track) (terminal : Bool) :
    shareOf team (track.move m terminal) =
      shareOf team track + if track.team = team then 1 else 0 := by
  have hteam : (track.move m terminal).team = track.team := by
    unfold Track.move Track.enterStage
    split <;> rfl
  have hcount : (track.move m terminal).transitions = track.transitions + 1 := by
    unfold Track.move Track.enterStage
    split <;> rfl
  unfold shareOf
  rw [hteam, hcount]
  split <;> rfl

/-- The track of an item has the team of its first event. -/
theorem exists_team_of_track {track : Track} (h : Journey.track? registry events = some track) :
    ∃ first ∈ events, track.team = first.team := by
  unfold Journey.track? at h
  split at h
  · rename_i first last hfirst hlast
    cases h
    exact ⟨first, List.mem_of_head? hfirst, rfl⟩
  · cases h

/-- The creation of an item begins its journey. -/
theorem Flows.created (h : Flows registry events metrics) (created : m.source = none)
    (first : events.filter (·.item = m.item) = []) :
    Flows registry (events ++ [m]) (metrics.takeIn registry m).1 := by
  rw [takeIn_created created]
  have hnone : metrics.tracks.get? m.item = none := by rw [h.tracks, first]; rfl
  refine ⟨fun item => ?_, fun team source target => ?_, fun team => ?_, fun teams team => ?_⟩
  · rw [Table.get?_put, journey_concat]
    by_cases hitem : m.item = item
    · subst hitem
      simp [first, Journey.start_track]
    · simpa [hitem, Ne.symm hitem] using h.tracks item
  · change metrics.countOf team (source, target) = _
    simpa [created] using h.counts team source target
  · change metrics.movesOf team = _
    simpa [created] using h.moves team
  · have hsum := Table.sum_map_put m.item (.start m) metrics.tracks (shareOf team)
    have hstart : shareOf team (.start m) = 0 := ite_self 0
    simp only [hnone, hstart, Option.map_none, Option.getD_none, Nat.add_zero] at hsum
    rw [transitionsOf_eq, hsum, ← transitionsOf_eq]
    exact h.transitions (fun m₁ h₁ m₂ h₂ => teams m₁ (by simp [h₁]) m₂ (by simp [h₂])) team

/-- A move of an item goes on with its journey. -/
theorem Flows.moved (h : Flows registry events metrics) {last : Moved}
    (hlast : (events.filter (·.item = m.item)).getLast? = some last) (moved : m.source.isSome)
    (onward : m.sourceStage = some last.targetStage) :
    Flows registry (events ++ [m]) (metrics.takeIn registry m).1 := by
  obtain ⟨source, hsource⟩ := Option.isSome_iff_exists.1 moved
  obtain ⟨alerted, htakeIn⟩ := exists_takeIn_moved registry metrics hsource
  obtain ⟨track, htrack⟩ := Journey.exists_track registry hlast
  have hknown : metrics.tracks.get? m.item = some track := (h.tracks m.item).trans htrack
  rw [htakeIn, Metrics.moved, hknown, Option.getD_some]
  refine ⟨fun item => ?_, fun team a b => ?_, fun team => ?_, fun teams team => ?_⟩
  · rw [Table.get?_put, journey_concat]
    by_cases hitem : m.item = item
    · subst hitem
      simpa using (Journey.move_track htrack hlast onward).symm
    · simpa [hitem, Ne.symm hitem] using h.tracks item
  · change (metrics.count m.team source m.target).countOf team (a, b) = _
    rw [countOf_count, h.counts, List.countP_append, List.countP_singleton]
    simp [hsource]
  · change (metrics.count m.team source m.target).movesOf team = _
    rw [movesOf_count, h.moves, List.countP_append, List.countP_singleton]
    simp [hsource]
  · have hteam : track.team = m.team := by
      obtain ⟨first, hfirst, hteam⟩ := exists_team_of_track htrack
      obtain ⟨hmem, hitem⟩ := List.mem_filter.1 hfirst
      rw [hteam]
      exact teams first (by simp [hmem]) m (by simp) (by simpa using hitem)
    have hsum := Table.sum_map_put m.item (track.move m
      (Run.isTerminalStage registry m.team m.workflowVersion m.targetStage)) metrics.tracks
      (shareOf team)
    have hbefore := h.transitions (fun m₁ h₁ m₂ h₂ => teams m₁ (by simp [h₁]) m₂ (by simp [h₂]))
      team
    change (metrics.count m.team source m.target).movesOf team = _
    rw [movesOf_count, hbefore, transitionsOf_eq, transitionsOf_eq]
    simp only [hknown, Option.map_some, Option.getD_some, shareOf_move, hteam] at hsum
    dsimp only
    omega

/-- Taking in the next event of a journey keeps the flow. -/
theorem Flows.takeIn (h : Flows registry events metrics)
    (journey : IsJourney ((events ++ [m]).filter (·.item = m.item))) :
    Flows registry (events ++ [m]) (metrics.takeIn registry m).1 := by
  rw [journey_concat, if_pos rfl, isJourney_concat] at journey
  obtain ⟨-, hnext⟩ := journey
  cases hlast : (events.filter (·.item = m.item)).getLast? with
  | none =>
    rw [hlast] at hnext
    exact h.created hnext (List.getLast?_eq_none_iff.1 hlast)
  | some last =>
    rw [hlast] at hnext
    exact h.moved hlast hnext.1 hnext.2

/-- The next event of a journey is taken in without a fault, if all times can be compared with its
time. -/
theorem Flows.takeIn_ok (h : Flows registry events metrics)
    (journey : IsJourney ((events ++ [m]).filter (·.item = m.item)))
    (uniform : ∀ e ∈ events ++ [m], e.time.mixes m.time = false) :
    ∃ alerts, (metrics.takeIn registry m).2 = .ok alerts := by
  have hflows := (h.takeIn journey).tracks m.item
  have hsame : (metrics.takeIn registry m).1.tracks = (metrics.recorded registry m).1.tracks := by
    rw [takeIn_eq]
    rfl
  have hmixed : Breach.mixed registry m.time (metrics.measuredBy registry m) = false := by
    refine List.any_eq_false.2 fun limit hlimit => ?_
    have hmeasured := (Run.mem_limits.1 hlimit).1
    have htrack : (metrics.takeIn registry m).1.tracks.get? m.item = some limit.track := by
      unfold measuredBy at hmeasured
      split at hmeasured
      · have hmap : ((metrics.recorded registry m).1.tracks.get? m.item).map (m.item, ·) =
            some (limit.item, limit.track) := by simpa [Run.measuredItems, eq_comm] using hmeasured
        obtain ⟨track, hget, heq⟩ := Option.map_eq_some_iff.1 hmap
        rw [hsame, hget, (Prod.mk.inj heq).2]
      · cases hmeasured
    obtain ⟨⟨first, hfirst, hcreated⟩, hentered⟩ :=
      Journey.times_of_track (hflows.symm.trans htrack)
    have hof {e : Moved} (he : e ∈ (events ++ [m]).filter (·.item = m.item)) :
        e.time.mixes m.time = false := uniform e (List.mem_filter.1 he).1
    rw [Bool.not_eq_true]
    refine Limit.not_mixes (hcreated ▸ hof hfirst) fun visit hvisit => ?_
    obtain ⟨e, he, heq⟩ := hentered visit hvisit
    exact heq ▸ hof he
  exact ⟨_, by rw [takeIn_eq]; simp only [hmixed, Bool.false_eq_true, if_false]; rfl⟩

/-- Nothing has happened yet where nothing is measured. -/
theorem flows_nil : Flows registry [] {} :=
  ⟨fun _ => rfl, fun _ _ _ => rfl, fun _ => rfl, fun _ _ => rfl⟩

/-- What was taken in is a flow, if it is a journey of each item. -/
theorem flows_foldl (journeys : ∀ item, IsJourney (events.filter (·.item = item))) :
    Flows registry events
      (events.foldl (fun metrics m => (metrics.takeIn registry m).1) {}) := by
  induction events using List.reverseRecOn with
  | nil => exact flows_nil
  | append_singleton events m ih =>
    have hbefore (item : String) : IsJourney (events.filter (·.item = item)) :=
      IsJourney.of_append (List.filter_append events [m] ▸ journeys item)
    rw [List.foldl_append]
    exact (ih hbefore).takeIn (journeys m.item)

end Metrics

namespace Run

/-- Events whose times can be compared are taken in without a fault. -/
theorem forM_measure_silent {s : System} {announce : Event → Run Unit} {events : List Moved}
    (fresh : s.metrics = {}) (silent : s.sink = .none)
    (journeys : ∀ item, IsJourney (events.filter (·.item = item)))
    (uniform : ∀ m ∈ events, ∀ m' ∈ events, m.time.mixes m'.time = false) :
    events.forM (measure announce) s =
      .ok () (events.foldl (fun t m => (measure announce m).after t) s) := by
  suffices h : ∀ later earlier, events = earlier ++ later → ∀ t : System, t.sink = .none →
      t.metrics.Flows t.registry earlier →
      later.forM (measure announce) t =
        .ok () (later.foldl (fun t m => (measure announce m).after t) t) from
    h events [] rfl s silent (fresh ▸ Metrics.flows_nil)
  intro later
  induction later with
  | nil => exact fun _ _ t _ _ => rfl
  | cons m later ih =>
    intro earlier hevents t hsilent hflows
    have hjourney : IsJourney ((earlier ++ [m]).filter (·.item = m.item)) := by
      have hall := journeys m.item
      rw [hevents, List.append_cons, List.filter_append] at hall
      exact hall.of_append
    have huniform (e : Moved) (he : e ∈ earlier ++ [m]) : e.time.mixes m.time = false :=
      uniform e (by rw [hevents]; grind) m (by rw [hevents]; simp)
    obtain ⟨alerts, halerts⟩ := hflows.takeIn_ok hjourney huniform
    have hok : measure announce m t = .ok () ((measure announce m).after t) := by
      rw [after_measure_silent hsilent, measure_silent hsilent, halerts]
      rfl
    rw [forM_cons_apply, hok, List.foldl_cons]
    refine ih (earlier ++ [m]) (by rw [hevents, List.append_cons]) _ ?_ ?_
    all_goals rw [after_measure_silent hsilent]
    · exact hsilent
    · exact hflows.takeIn hjourney

end Run

/-- Metrics that start afresh, and whose alerts go nowhere, take in all events, whatever the items
and in whatever order, and without a fault if their times can be compared. If the events of each
item are a journey, each item is measured as its journey is, and the moves of each team are counted
between statuses. Their sum is the number of the team's moves, which are the transitions of its
items. -/
theorem measures_flow (s : System) (announce : Event → Run Unit) (events : List Moved)
    (fresh : s.metrics = {}) (silent : s.sink = .none)
    (journeys : ∀ item, IsJourney (events.filter (·.item = item))) :
    let t := events.foldl (fun t m => (Run.measure announce m).after t) s
    t.metrics.Flows s.registry events ∧
      ((∀ m ∈ events, ∀ m' ∈ events, m.time.mixes m'.time = false) →
        events.forM (Run.measure announce) s = .ok () t) := by
  refine ⟨?_, Run.forM_measure_silent fresh silent journeys⟩
  rw [Run.foldl_measure_silent silent, fresh]
  exact Metrics.flows_foldl journeys

/-- Some hours after the beginning. -/
def atHour (hours : Int) : Instant := { micros := hours * 3600000000 }

/-- A change of an item of the sample team, between statuses in stages. -/
def flowing (item : String) (source : Option (String × String)) (target : String × String)
    (hours : Int) : Moved where
  item
  team := "t"
  workflowVersion := 1
  source := source.map (·.1)
  target := target.1
  sourceStage := source.map (·.2)
  targetStage := target.2
  actor := "ada"
  time := atHour hours

/-- Two items, whose events are mingled: one of them goes on within a stage, is completed, comes
back and is completed again. -/
def mingledFlow : List Moved :=
  [flowing "i" none ("A", "work") 0, flowing "j" none ("A", "work") 1,
    flowing "i" (some ("A", "work")) ("B", "work") 2,
    flowing "i" (some ("B", "work")) ("Z", "done") 3,
    flowing "j" (some ("A", "work")) ("Z", "done") 4,
    flowing "i" (some ("Z", "done")) ("A", "work") 5,
    flowing "i" (some ("A", "work")) ("Z", "done") 6]

theorem measures_flow_mingled :
    ∃ t, mingledFlow.forM (Run.measure Run.publish)
        { registry := (System.through {} (sampleSession [])).registry, sink := .none } = .ok () t ∧
      (t.metrics.tracks.get? "i").map (fun track => (track.visits.map (·.stage), track.transitions,
        track.loopBacks, track.completedAt)) =
          some (["work", "done", "work", "done"], 4, 2, some (atHour 3)) ∧
      t.metrics.countOf "t" ("A", "Z") = 2 ∧ t.metrics.transitionsOf "t" = 5 := by
  have hjourneys (item : String) : IsJourney (mingledFlow.filter (·.item = item)) := by
    by_cases hi : item = "i"
    · subst hi
      exact ⟨rfl, by decide, by decide⟩
    by_cases hj : item = "j"
    · subst hj
      exact ⟨rfl, by decide, by decide⟩
    · simp [mingledFlow, flowing, Ne.symm hi, Ne.symm hj, IsJourney]
  obtain ⟨hflows, hrun⟩ := measures_flow
    { registry := (System.through {} (sampleSession [])).registry, sink := .none } Run.publish
    mingledFlow rfl rfl hjourneys
  refine ⟨_, hrun (by decide), ?_, ?_, ?_⟩
  · rw [hflows.tracks]
    decide +kernel
  · rw [hflows.counts]
    decide +kernel
  · rw [← hflows.transitions (by decide +kernel) "t", hflows.moves]
    decide +kernel

end Stageflow
