import Stageflow.Proofs.Core.Cascade
import Stageflow.Proofs.Evolution.Session

/-!
# What operations do to the core

A move is announced over as many levels as its depth leaves, by induction on the levels. Operations
that do not forge moves, and do not touch the registry or the clock, then preserve whatever moves
do.
-/

namespace Stageflow

open Run Stageflow.Core

/-- Publishing a pending move settles it, if what it causes is moves one level deeper. -/
def Core.Publishes (limit : Int) (I H : Core → Prop) (P : Moved → Core → Prop) : Prop :=
  ∀ announce m s, (m.depth ≤ limit → Moves I H (m.depth + 1) announce) → P m s.core →
    Ends (On I) (On H) (publishWith announce (.moved m)) s fun _ => On I

/-- Delivering pending moves over as many levels as they can cause settles them. -/
def Core.Cascades (limit : Int) (I H : Core → Prop) (P : Moved → Core → Prop) : Prop :=
  ∀ (n : Nat) (depth : Int), levels limit depth ≤ n → Settles I H P depth (cascade n)

variable {I H : Core → Prop} {P : Moved → Core → Prop} {limit : Int}

namespace Run

/-! ## Levels -/

/-- What an event within the limit causes is delivered over the levels that are left. -/
theorem levels_next {limit depth : Int} {n : Nat} (hdepth : depth ≤ limit)
    (h : levels limit depth ≤ n + 1) : levels limit (depth + 1) ≤ n := by
  rw [levels_of_le hdepth] at h
  omega

theorem cascades_of_publishes (moving : Moving limit I H P) (publishes : Publishes limit I H P) :
    Cascades limit I H P := by
  intro n
  induction n with
  | zero => exact fun _ h => absurd (levels_pos ..) (Nat.not_lt_of_le h)
  | succ n ih =>
    rintro _ h m s rfl hm
    exact publishes (cascade n) m s
      (fun hdepth => moves_of_settles moving (ih _ (levels_next hdepth h))) hm

theorem settles_publish (moving : Moving limit I H P) (cascades : Cascades limit I H P)
    (depth : Int) : Settles I H P depth publish := by
  rintro m s rfl hm
  have hlimit : s.settings.maxCascadeDepth = limit := moving.pending hm
  simp only [publish, ends_bind, ends_get, hlimit]
  exact cascades _ _ (Nat.le_refl _) m s rfl hm

theorem moves_publish (moving : Moving limit I H P) (cascades : Cascades limit I H P)
    (depth : Int) : Moves I H depth publish :=
  moves_of_settles moving (settles_publish moving cascades depth)

/-- A published signal is given to every subscriber. -/
theorem stays_publishSignal (moving : Moving limit I H P) (cascades : Cascades limit I H P)
    {signal : Signal} : Stays (On I) (On H) (publish (.signal signal)) := by
  refine .get_bind fun s hs => ?_
  have hlimit : s.settings.maxCascadeDepth = limit := moving.limited hs
  rw [hlimit]
  refine stays_publishWith_of_handOver (.bind .get fun t => ?_) s hs
  dsimp only
  split
  · refine .forM fun subscriber _ t ht => ends_deliverSafely subscriber fun u hu => ?_
    refine stays_deliverSignal moving.toSteady (fun hdepth => moves_of_settles moving
      (cascades _ _ (levels_next hdepth (Nat.le_refl _)))) u ?_
    exact (congrArg I hu).mpr (moving.signalled subscriber signal ht)
  · exact .pure

/-! ## Properties that are blind to what is measured -/

/-- A property that does not read the tracks is kept by every delivery. -/
theorem stays_deliver (steady : Steady limit I H) (blind : ∀ {c} tracks, I c → I { c with tracks })
    {announce : Event → Run Unit} {event : Event} {subscriber : Subscriber}
    (hmoves : event.depth ≤ limit → Moves I H (event.depth + 1) announce) :
    Stays (On I) (On H) (deliver announce event subscriber) := by
  cases event with
  | signal signal => exact stays_deliverSignal steady hmoves
  | moved m =>
    cases subscriber with
    | automation => exact stays_handleEvent steady hmoves
    | metrics => exact fun s hs => ends_measure steady hmoves fun _ => blind _ hs
    | recorder => exact stays_modify fun _ => rfl
    | failing name => exact .raise

theorem publishes_of_blind (steady : Steady limit I H)
    (blind : ∀ {c} tracks, I c → I { c with tracks })
    (unheard : ∀ {c} delivered, I c → I { c with delivered }) : Publishes limit I H fun _ => I := by
  intro announce m s hmoves hs
  have hdeliver (subscriber : Subscriber) :
      Stays (On I) (On H) (deliver announce (.moved m) subscriber) :=
    stays_deliver steady blind hmoves
  have hpublish : Stays (On I) (On H) (publishWith announce (.moved m)) := by
    refine stays_publishWith_of_handOver (.bind .get fun t => ?_)
    dsimp only
    split
    · exact .forM fun subscriber _ t ht => ends_deliverSafely subscriber fun u hu =>
        hdeliver subscriber u ((congrArg I hu).mpr (unheard _ ht))
    · exact .pure
  exact hpublish s hs

/-! ## Documents -/

theorem stays_edit {change : Source → Source} : Stays (On I) (On H) (modify (System.edit change)) :=
  stays_modify fun s => by
    unfold System.edit
    split <;> rfl

theorem stays_storeDocument {document : TeamDocument} {version : Int} :
    Stays (On I) (On H) (storeDocument document version) :=
  stays_modify fun s => by
    unfold System.edit
    split <;> rfl

/-- Activating leaves all but the registry as it is. -/
theorem stays_activate (published : ∀ {c} registry, I c → I { c with registry }) {team : String} :
    Stays (On I) (On H) (activate team) := by
  refine .bind (.bind .get fun s => ?_) fun merged => .bind .get fun s => .bind ?_ fun w =>
    .bind (.modify fun s hs => published _ hs) fun _ => .pure
  · split
    · exact .raise
    · refine .bind .get fun s => ?_
      split
      · exact .pure
      · exact .bind (stays_note rfl) fun _ => .raise
      · exact .raise
  · unfold compile
    split
    · exact .bind (stays_forM_note _ (fun _ => rfl) _) fun _ => .pure
    · exact .bind (stays_note rfl) fun _ => .raise
    · exact .raise

theorem stays_activateTeams (published : ∀ {c} registry, I c → I { c with registry })
    {teams : List String} : Stays (On I) (On H) (activateTeams teams) := by
  induction teams with
  | nil => exact .pure
  | cons team rest ih =>
    refine .bind (.attempt (stays_activate published)) fun result => ?_
    split
    · exact .bind ih fun _ => .pure
    · split
      · exact .bind (stays_note rfl) fun _ => .bind ih fun _ => .pure
      · exact .raise

end Run

/-! ## Operations -/

namespace Operation

/-- Whether an operation only asks for what moves items by their rules: it forges no move, and
changes neither the registry nor the clock nor what an item is bound to. -/
def isPlain : Operation → Bool
  | .migrate .. | .deliver (.moved _) _ | .publish (.moved _) | .advance _ | .activate _
  | .activateAll => false
  | _ => true

theorem stays_perform (moving : Moving limit I H P) (cascades : Cascades limit I H P)
    {op : Operation} (plain : op.isPlain) : Stays (On I) (On H) op.perform := by
  have steady := moving.toSteady
  have hmoves (depth : Int) : Moves I H depth Run.publish := moves_publish moving cascades depth
  cases op with
  | create request =>
    exact .bind (stays_createItem moving (settles_publish moving cascades _)) fun _ => .pure
  | move item target actor => exact .bind (hmoves _ item target actor rfl) fun _ => .pure
  | signOff item stage role approver => exact .bind (stays_signOff steady) fun _ => .pure
  | setCriterion item criterion satisfied => exact .bind (stays_setCriterion steady) fun _ => .pure
  | choices item => exact .bind (stays_choicesOf steady) fun _ => .pure
  | gate item stage => exact .bind (stays_gateOf steady) fun _ => .pure
  | ingest signal => exact stays_ingest steady fun _ => hmoves _
  | deliver event subscriber =>
    cases event with
    | moved m => cases plain
    | signal signal => exact stays_deliverSignal steady fun _ => hmoves _
  | publish event =>
    cases event with
    | moved m => cases plain
    | signal signal => exact stays_publishSignal moving cascades
  | tick time => exact .bind (stays_tick steady hmoves) fun _ => .pure
  | disarm item rule =>
    refine .bind (.bind .get fun s => .bind (stays_modify fun _ => rfl) fun _ => ?_) fun _ => .pure
    exact .bind (stays_forM_note _ (fun _ => rfl) _) fun _ => .pure
  | act context actions =>
    exact .bind (stays_runActions steady fun _ _ _ => hmoves _) fun _ => .pure
  | checkThresholds time items depth =>
    exact .bind (stays_checkThresholds steady fun _ => hmoves _) fun _ => .pure
  | putDocument raw =>
    refine .bind (.bind .ofReading fun _ => .bind .get fun _ => ?_) fun _ => .pure
    exact .bind stays_storeDocument fun _ => .pure
  | saveDocument raw expected =>
    refine .bind (.bind .ofReading fun _ => .bind .get fun _ => ?_) fun _ => .pure
    dsimp only
    split
    · exact .raise
    · exact .bind stays_storeDocument fun _ => .pure
  | putFragment name fragment => exact stays_edit
  | check team =>
    refine .bind (.bind .get fun s => .bind ?_ fun _ => .ofReading) fun _ => .pure
    unfold Source.checkNotice?
    split
    · exact .pure
    · split
      · exact stays_note rfl
      · exact .pure
  | startEvaluator =>
    refine .bind .get fun s => ?_
    split
    · exact stays_note rfl
    · exact stays_modify fun _ => rfl
  | stopEvaluator => exact stays_modify fun _ => rfl
  | migrate | advance | activate | activateAll => cases plain

/-- The clock moves by the span that is asked for, or stays. -/
theorem stays_advance {seconds : Json}
    (elapsed : ∀ {c span}, I c → Span.ofJson seconds = .ok span →
      I { c with clock := c.clock.shift span }) :
    Stays (On I) (On H) (advance seconds).perform := by
  intro s hs
  simp only [perform, Run.advance, ends_bind, ends_get, ends_ofReading]
  cases hspan : Span.ofJson seconds with
  | error d => exact hs
  | ok span =>
    cases hclock : s.clock.add span with
    | error d =>
      have hbind : (Except.ok span >>= s.clock.add) = .error d := hclock
      simpa only [hbind] using hs
    | ok clock =>
      have hclock' : clock = s.clock.shift span := Instant.add_eq_ok hclock
      have hbind : (Except.ok span >>= s.clock.add) = .ok clock := hclock
      simp only [hbind, ends_modify, ends_pure, hclock']
      exact elapsed hs hspan

/-- Activating teams leaves all but the registry as it is. -/
theorem stays_activations (published : ∀ {c} registry, I c → I { c with registry })
    {op : Operation} (h : op = .activateAll ∨ ∃ team, op = .activate team) :
    Stays (On I) (On H) op.perform := by
  obtain rfl | ⟨team, rfl⟩ := h
  · exact .bind (.bind .get fun _ => stays_activateTeams published) fun _ => .pure
  · exact .bind (stays_activate published) fun _ => .pure

/-- A property that reads neither the tracks nor the deliveries is kept by every operation, forged
moves included. -/
theorem stays_perform_of_blind (moving : Moving limit I H fun _ => I)
    (blind : ∀ {c} tracks, I c → I { c with tracks })
    (unheard : ∀ {c} delivered, I c → I { c with delivered })
    (published : ∀ {c} registry, I c → I { c with registry })
    (rebound : ∀ {c old new}, I c → c.items.get? old.id = some old → new.Rebinds old →
      new.createdAt = old.createdAt → new.version = old.version + 1 → I (c.save new))
    {op : Operation}
    (elapsed : ∀ {c seconds span}, op = .advance seconds → Span.ofJson seconds = .ok span → I c →
      I { c with clock := c.clock.shift span }) :
    Stays (On I) (On H) op.perform := by
  have steady := moving.toSteady
  have cascades := cascades_of_publishes moving (publishes_of_blind steady blind unheard)
  cases op with
  | migrate item version => exact .bind (stays_migrate steady rebound) fun _ => .pure
  | deliver event subscriber =>
    exact stays_deliver steady blind fun _ => moves_publish moving cascades _
  | publish event =>
    cases event with
    | moved m => exact fun s hs => settles_publish moving cascades m.depth m s rfl hs
    | signal signal => exact stays_publishSignal moving cascades
  | advance seconds => exact stays_advance fun hs hspan => elapsed rfl hspan hs
  | activate team => exact stays_activations published (.inr ⟨team, rfl⟩)
  | activateAll => exact stays_activations published (.inl rfl)
  | _ => exact stays_perform moving cascades rfl

end Operation

end Stageflow
