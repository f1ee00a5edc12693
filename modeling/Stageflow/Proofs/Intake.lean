import Mathlib.Data.List.TakeWhile
import Stageflow.Proofs.Applied
import Stageflow.System.Cascade

/-!
# What metrics take in

An event is taken into the metrics, and limits are checked, in one step; only then the alerts go to
the sink, one after another, so whatever the sink causes finds the step done. The alerts of a step
are of the breaches that it finds and that were not reported before.

## Main statements

* `Metrics.check_eq` — what a check of limits finds.
* `Run.checkWith_apply`, `Run.measureWith_apply` — the step, and the deliveries behind it.
-/

namespace Stageflow

/-! ## Breaches -/

/-- What a limit is kept on: a visit of an item, the item as a whole, or the number of times that it
came back to a stage. -/
inductive Occasion where
  | visit (number : Nat) (stage : String) (enteredAt : Instant)
  | item
  | loopBacks (count : Nat)
  deriving DecidableEq, Repr

/-- The number that tells an occasion from others of the same threshold. -/
def Occasion.number : Occasion → Nat
  | .visit number .. => number
  | .item => 0
  | .loopBacks count => count

/-- The occasion on which a threshold measures a track, if it applies. -/
def Track.occasion? (track : Track) (threshold : Threshold) : Option Occasion :=
  match threshold.metric with
  | .stageDuration =>
    (track.currentVisit?.filter fun visit => threshold.stage.alike (.str visit.stage)).map
      fun visit => .visit (track.visits.length - 1) visit.stage visit.enteredAt
  | .cycleTime => if track.completedAt.isSome then none else some .item
  | .loopBackRate => if track.transitions = 0 then none else some (.loopBacks track.loopBacks)

/-- The value that is measured on an occasion. -/
def Track.valueOn (track : Track) (now : Instant) : Occasion → Binary64
  | .visit _ _ enteredAt => Span.hours (enteredAt.spanTo now)
  | .item => Span.hours (track.createdAt.spanTo now)
  | .loopBacks _ => track.loopBackRate

/-- Whether the time that is measured on an occasion cannot be told. -/
def Track.mixedOn (track : Track) (now : Instant) : Occasion → Bool
  | .visit _ _ enteredAt => enteredAt.mixes now
  | .item => track.createdAt.mixes now
  | .loopBacks _ => false

theorem Track.measure?_eq (track : Track) (threshold : Threshold) (now : Instant) :
    track.measure? threshold now =
      match track.occasion? threshold with
      | none => .ok none
      | some o =>
        if track.mixedOn now o then .error (.mixedTimes "subtract")
        else .ok (some (track.valueOn now o, o.number)) := by
  unfold measure? occasion?
  cases threshold.metric with
  | stageDuration =>
    dsimp only
    cases track.currentVisit?.filter fun visit => threshold.stage.alike (.str visit.stage) with
    | none => rfl
    | some visit =>
      by_cases hmixes : visit.enteredAt.mixes now <;>
        simp [mixedOn, valueOn, Occasion.number, Instant.hoursTo, Except.map, hmixes]
  | cycleTime =>
    dsimp only
    split
    · rfl
    · by_cases hmixes : track.createdAt.mixes now <;>
        simp [mixedOn, valueOn, Occasion.number, Instant.hoursTo, Except.map, hmixes]
  | loopBackRate =>
    dsimp only
    split <;> rfl

/-- Whether a threshold cannot be measured at a time. -/
def Limit.mixes (limit : Limit) (now : Instant) : Bool :=
  (limit.track.occasion? limit.threshold).any (limit.track.mixedOn now)

/-- What is measured of times that can be compared with the time of measurement can be measured. -/
theorem Limit.not_mixes {limit : Limit} {now : Instant}
    (created : limit.track.createdAt.mixes now = false)
    (entered : ∀ visit ∈ limit.track.visits, visit.enteredAt.mixes now = false) :
    limit.mixes now = false := by
  unfold mixes Track.occasion?
  split
  · cases hvisit : limit.track.currentVisit?.filter fun visit =>
        limit.threshold.stage.alike (.str visit.stage) with
    | none => rfl
    | some visit =>
      have hcurrent := (Option.filter_eq_some_iff.1 hvisit).1
      have hlast := (Option.filter_eq_some_iff.1 hcurrent).1
      exact entered visit (List.mem_of_getLast? hlast)
  · split
    · rfl
    · exact created
  · split <;> rfl

/-- A threshold whose limit a track is over. -/
structure Breach extends Limit where
  occasion : Occasion
  value : Binary64

namespace Breach

/-- What is put down of a breach that is reported. -/
def key (breach : Breach) : AlertKey :=
  (breach.item, breach.threshold.id, breach.occasion.number)

/-- The alert of a breach. -/
def alert (breach : Breach) (now : Instant) (depth : Int) : Signal :=
  (Metrics.alert breach.toLimit breach.value breach.occasion.number now depth).2

/-- The breach of a threshold that is kept. -/
def of? (now : Instant) (limit : Limit) : Option Breach :=
  (limit.track.occasion? limit.threshold).bind fun occasion =>
    if (limit.track.valueOn now occasion).le limit.threshold.limit then none
    else some ⟨limit, occasion, limit.track.valueOn now occasion⟩

/-- Whether a threshold of measured items cannot be measured. -/
def mixed (registry : Registry) (now : Instant) (measured : List (String × Track)) : Bool :=
  (Run.limits registry measured).any (·.mixes now)

/-- The breaches of thresholds by measured items, each by those of its version, up to a threshold
that cannot be measured. -/
def among (registry : Registry) (now : Instant) (measured : List (String × Track)) : List Breach :=
  ((Run.limits registry measured).takeWhile (! ·.mixes now)).filterMap (of? now)

/-- The breaches that are to be reported, where some were reported before. -/
def unreported : List AlertKey → List Breach → List Breach
  | _, [] => []
  | reported, breach :: rest =>
    if breach.key ∈ reported then unreported reported rest
    else breach :: unreported (breach.key :: reported) rest

variable {registry : Registry} {now : Instant} {measured : List (String × Track)}
  {breach : Breach} {reported : List AlertKey} {breaches : List Breach}

theorem of?_eq_some {limit : Limit} : of? now limit = some breach ↔
    breach.toLimit = limit ∧ limit.track.occasion? limit.threshold = some breach.occasion ∧
      breach.value = limit.track.valueOn now breach.occasion ∧
      breach.value.le limit.threshold.limit = false := by
  unfold of?
  rw [Option.bind_eq_some_iff]
  constructor
  · rintro ⟨occasion, hoccasion, hbreach⟩
    split at hbreach
    · cases hbreach
    · rename_i hle
      cases hbreach
      exact ⟨rfl, hoccasion, rfl, by simpa using hle⟩
  · rintro ⟨rfl, hoccasion, hvalue, hle⟩
    exact ⟨_, hoccasion, by rw [← hvalue, hle]; rfl⟩

/-- A breach is of a measured item and of a threshold of its version that applies to it, with a
value that is not at or below the limit. -/
theorem of_mem_among (h : breach ∈ among registry now measured) :
    (breach.item, breach.track) ∈ measured ∧
      ∃ w, registry.version? breach.track.team breach.track.workflowVersion = some w ∧
        breach.threshold ∈ w.thresholds ∧
        breach.track.occasion? breach.threshold = some breach.occasion ∧
        breach.value = breach.track.valueOn now breach.occasion ∧
        breach.value.le breach.threshold.limit = false := by
  obtain ⟨limit, hlimit, hof⟩ := List.mem_filterMap.1 h
  obtain ⟨rfl, hoccasion, hvalue, hle⟩ := of?_eq_some.1 hof
  obtain ⟨hp, w, hw, hthreshold⟩ := Run.mem_limits.1 ((List.takeWhile_sublist _).subset hlimit)
  exact ⟨hp, w, hw, hthreshold, hoccasion, hvalue, hle⟩

@[simp] theorem unreported_nil (reported : List AlertKey) : unreported reported [] = [] := rfl

theorem unreported_cons (reported : List AlertKey) (breach : Breach) (rest : List Breach) :
    unreported reported (breach :: rest) =
      if breach.key ∈ reported then unreported reported rest
      else breach :: unreported (breach.key :: reported) rest := rfl

theorem unreported_sublist (reported : List AlertKey) (breaches : List Breach) :
    (unreported reported breaches).Sublist breaches := by
  induction breaches generalizing reported with
  | nil => exact .slnil
  | cons breach rest ih =>
    rw [unreported_cons]
    split
    · exact (ih reported).cons _
    · exact (ih _).cons_cons _

/-- What is to be reported was not reported before. -/
theorem key_not_mem_of_unreported (h : breach ∈ unreported reported breaches) :
    breach.key ∉ reported := by
  induction breaches generalizing reported with
  | nil => cases h
  | cons first rest ih =>
    rw [unreported_cons] at h
    split at h
    · exact ih h
    · rename_i hfirst
      obtain rfl | h := List.mem_cons.1 h
      · exact hfirst
      · exact fun hmem => ih h (List.mem_cons_of_mem _ hmem)

/-- No two breaches that are to be reported are put down alike. -/
theorem nodup_unreported (reported : List AlertKey) (breaches : List Breach) :
    ((unreported reported breaches).map key).Nodup := by
  induction breaches generalizing reported with
  | nil => exact List.nodup_nil
  | cons first rest ih =>
    rw [unreported_cons]
    split
    · exact ih reported
    · refine List.nodup_cons.2 ⟨fun hmem => ?_, ih _⟩
      obtain ⟨other, hother, hkey⟩ := List.mem_map.1 hmem
      exact key_not_mem_of_unreported hother (hkey ▸ List.mem_cons_self)

/-- A breach was reported before, or one that is put down alike is to be reported. -/
theorem reported_or_unreported (reported : List AlertKey) (h : breach ∈ breaches) :
    breach.key ∈ reported ∨ ∃ other ∈ unreported reported breaches, other.key = breach.key := by
  induction breaches generalizing reported with
  | nil => cases h
  | cons first rest ih =>
    rw [unreported_cons]
    obtain rfl | h := List.mem_cons.1 h
    · split
      · exact .inl ‹_›
      · exact .inr ⟨breach, List.mem_cons_self, rfl⟩
    · split
      · exact ih reported h
      · obtain hmem | ⟨other, hother, hkey⟩ := ih (first.key :: reported) h
        · obtain heq | hmem := List.mem_cons.1 hmem
          · exact .inr ⟨first, List.mem_cons_self, heq.symm⟩
          · exact .inl hmem
        · exact .inr ⟨other, List.mem_cons_of_mem _ hother, hkey⟩

end Breach

/-! ## Steps -/

namespace Metrics

variable {registry : Registry} {metrics : Metrics} {now : Instant} {depth : Int}

/-- Metrics with some breaches reported, and their alerts. -/
def report (metrics : Metrics) (now : Instant) (depth : Int) (breaches : List Breach) :
    Metrics × List Signal :=
  ({ metrics with alerted := (breaches.map Breach.key).reverse ++ metrics.alerted },
    breaches.map (·.alert now depth))

/-- Metrics with the limits of some items checked, and the alerts that are new, if all of them could
be measured. -/
def check (registry : Registry) (metrics : Metrics) (now : Instant) (items : List String)
    (depth : Int) : Metrics × Except Fault (List Signal) :=
  metrics.alerts now depth (Run.limits registry (Run.measuredItems metrics items))

/-- Metrics with an event in them, and whether it counts as a move. -/
def recorded (registry : Registry) (metrics : Metrics) (m : Moved) : Metrics × Bool :=
  metrics.record m (Run.isTerminalStage registry m.team m.workflowVersion m.targetStage)

/-- Metrics with an event taken in, and the alerts that are new: a move has the limits of its item
checked. -/
def takeIn (registry : Registry) (metrics : Metrics) (m : Moved) :
    Metrics × Except Fault (List Signal) :=
  if (metrics.recorded registry m).2 then
    (metrics.recorded registry m).1.check registry m.time [m.item] m.depth
  else ((metrics.recorded registry m).1, .ok [])

/-- The track of an item with a move in it; an item that is not known starts one. -/
def moved (registry : Registry) (metrics : Metrics) (m : Moved) : Track :=
  ((metrics.tracks.get? m.item).getD (.start m)).move m
    (Run.isTerminalStage registry m.team m.workflowVersion m.targetStage)

theorem recorded_created {m : Moved} (created : m.source = none) :
    metrics.recorded registry m =
      ({ metrics with tracks := metrics.tracks.put m.item (.start m) }, false) := by
  simp [recorded, record, created]

theorem recorded_moved {m : Moved} {source : String} (moved : m.source = some source) :
    metrics.recorded registry m =
      (({ metrics with tracks := metrics.tracks.put m.item (metrics.moved registry m) }).count
        m.team source m.target, true) := by
  simp [recorded, record, Metrics.moved, moved]

theorem alert?_eq (limit : Limit) :
    metrics.alert? limit now depth =
      if limit.mixes now then .error (.mixedTimes "subtract")
      else .ok ((Breach.of? now limit).bind fun breach =>
        if breach.key ∈ metrics.alerted then none
        else some (breach.key, breach.alert now depth)) := by
  unfold alert? Breach.of? Limit.mixes
  rw [Track.measure?_eq]
  cases limit.track.occasion? limit.threshold with
  | none => rfl
  | some occasion =>
    by_cases hmixes : limit.track.mixedOn now occasion
    · simp [hmixes, Bind.bind, Except.bind]
    by_cases hle : (limit.track.valueOn now occasion).le limit.threshold.limit
    · simp [hmixes, hle, Bind.bind, Except.bind, Pure.pure, Except.pure]
    · by_cases hkey : (limit.item, limit.threshold.id, occasion.number) ∈ metrics.alerted <;>
        simp [hmixes, hle, hkey, alert, Breach.key, Breach.alert, Bind.bind, Except.bind, Pure.pure,
          Except.pure]

theorem alerts_eq (metrics : Metrics) (limits : List Limit) :
    metrics.alerts now depth limits =
      let news := Breach.unreported metrics.alerted
        ((limits.takeWhile (! ·.mixes now)).filterMap (Breach.of? now))
      ((metrics.report now depth news).1,
        if limits.any (·.mixes now) then .error (.mixedTimes "subtract")
        else .ok (metrics.report now depth news).2) := by
  induction limits generalizing metrics with
  | nil => rfl
  | cons limit rest ih =>
    unfold alerts
    rw [alert?_eq]
    by_cases hmixes : limit.mixes now
    · simp [hmixes, report]
    cases hof : Breach.of? now limit with
    | none => simp [hmixes, hof, ih]
    | some breach =>
      by_cases h : breach.key ∈ metrics.alerted
      · simp [hmixes, hof, h, ih, Breach.unreported_cons]
      · simp only [hmixes, hof, h, ih, Option.bind_some, if_false, Bool.false_eq_true, report,
          List.takeWhile_cons, Bool.not_false, if_true, List.filterMap_cons, Breach.unreported_cons,
          List.any_cons, Bool.false_or, List.map_cons, List.reverse_cons, List.append_assoc,
          List.singleton_append]
        split <;> rfl

/-- An event gives its item a track. -/
theorem tracks_recorded (registry : Registry) (metrics : Metrics) (m : Moved) :
    (metrics.recorded registry m).1.tracks = metrics.tracks.put m.item
      (if m.source.isNone then .start m else metrics.moved registry m) := by
  cases hsource : m.source with
  | none => simp [recorded_created hsource]
  | some source => simp [recorded_moved hsource, count]

/-- An event leaves what was reported as it is. -/
theorem alerted_recorded (m : Moved) :
    (metrics.recorded registry m).1.alerted = metrics.alerted := by
  cases hsource : m.source with
  | none => rw [recorded_created hsource]
  | some source =>
    rw [recorded_moved hsource]
    rfl

/-- The items whose limits are checked when an event is taken in: that of a move. -/
def measuredBy (registry : Registry) (metrics : Metrics) (m : Moved) : List (String × Track) :=
  if (metrics.recorded registry m).2 then
    Run.measuredItems (metrics.recorded registry m).1 [m.item]
  else []

/-- A check of limits reports the breaches that were not reported before. Their alerts are lost if
there is a limit that cannot be measured. -/
theorem check_eq (metrics : Metrics) (items : List String) :
    metrics.check registry now items depth =
      let measured := Run.measuredItems metrics items
      let found := metrics.report now depth
        (Breach.unreported metrics.alerted (Breach.among registry now measured))
      (found.1, if Breach.mixed registry now measured then .error (.mixedTimes "subtract")
        else .ok found.2) :=
  alerts_eq metrics _

/-- An event that is taken in has the breaches reported that were not reported before, in the same
way. -/
theorem takeIn_eq (metrics : Metrics) (m : Moved) :
    metrics.takeIn registry m =
      let measured := metrics.measuredBy registry m
      let found := (metrics.recorded registry m).1.report m.time m.depth
        (Breach.unreported metrics.alerted (Breach.among registry m.time measured))
      (found.1, if Breach.mixed registry m.time measured then .error (.mixedTimes "subtract")
        else .ok found.2) := by
  unfold takeIn measuredBy
  split
  · rw [check_eq, alerted_recorded]
  · rfl

end Metrics

namespace Run

variable {s : System} {sink : Signal → Run Unit}

/-- Puts down what a step has found, and hands the alerts to a sink. -/
def settle (sink : Signal → Run Unit) (found : Metrics × Except Fault (List Signal)) :
    Run (List Signal) := do
  modify fun s => { s with metrics := found.1 }
  let alerts ← ofExcept found.2
  alerts.forM sink
  return alerts

/-- A check of limits is one step, with the deliveries behind it. -/
theorem checkWith_apply (now : Option Instant) (items : List String) (depth : Int) :
    checkWith sink now items depth s =
      settle sink (s.metrics.check s.registry (now.getD s.clock) items depth) s := rfl

/-- An event is taken in by one step, with the deliveries behind it. -/
theorem measureWith_apply (m : Moved) :
    measureWith sink m s =
      (settle sink (s.metrics.takeIn s.registry m) >>= fun _ => pure ()) s := by
  have hrecorded : measureWith sink m s =
      (set { s with metrics := (s.metrics.recorded s.registry m).1 } >>= fun _ =>
        if (s.metrics.recorded s.registry m).2 then
          checkWith sink (some m.time) [m.item] m.depth >>= fun _ => pure ()
        else pure ()) s := rfl
  rw [hrecorded, set_bind_apply]
  unfold Metrics.takeIn
  cases (s.metrics.recorded s.registry m).2 with
  | false => rfl
  | true =>
    simp only [if_true]
    rw [bind_apply, checkWith_apply, bind_apply]
    rfl

end Run

end Stageflow
