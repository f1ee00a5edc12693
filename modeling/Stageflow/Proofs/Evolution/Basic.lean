import Stageflow.Proofs.Keeps
import Stageflow.Proofs.View

/-!
# How systems evolve

`Evolves` relates a system to those that a computation may leave behind: their views are reached by
steps, whatever is out of the table meanwhile. This file has what holds along all steps, and what
the computations of `Stageflow.Run` that only prepare others come to.
-/

namespace Stageflow

open Run

variable {terms : Terms}

/-! ## What steps leave as it is -/

theorem View.told_eq (v : View) (m : Moved) : v.told m = v ∨ v.told m = v.hear m := by
  unfold View.told
  split <;> simp

theorem View.hear_of_deep {v : View} {m : Moved} (h : v.limit < m.depth) :
    v.hear m = v.log (.dropped (.moved m) v.limit) := if_pos h

theorem View.hear_of_not_deep {v : View} {m : Moved} (h : ¬ v.limit < m.depth) :
    v.hear m =
      { v.log (.handled (.moved m)) with watches := v.watches.stay m }.logAll
        ((v.watches.left m).values.map .left) := if_neg h

/-- Whether a notice is one of those that hearing of a move leaves. -/
def Notice.isEcho : Notice → Bool
  | .dropped .. | .handled (.moved _) | .left _ => true
  | _ => false

/-- What is heard leaves echoes; the watches that remain are not of a status that was left, unless
the move was dropped. -/
theorem View.hear_trace (v : View) (m : Moved) :
    ∃ echoes, (v.hear m).trace = echoes ++ v.trace ∧ (∀ notice ∈ echoes, notice.isEcho) ∧
      ((∃ limit, .dropped (.moved m) limit ∈ echoes) ∨
        ∀ p ∈ (v.hear m).watches, p.2.item = m.item → p.2.status = m.target) := by
  by_cases hdeep : v.limit < m.depth
  · rw [View.hear_of_deep hdeep]
    refine ⟨[.dropped (.moved m) v.limit], rfl, by simp [Notice.isEcho], .inl ⟨v.limit, ?_⟩⟩
    exact List.mem_singleton.2 rfl
  · rw [View.hear_of_not_deep hdeep]
    refine ⟨((v.watches.left m).values.map .left).reverse ++ [.handled (.moved m)], ?_, ?_,
      .inr fun p hp hitem => ?_⟩
    · simp [View.logAll, View.log]
    · simp [Notice.isEcho, or_imp, forall_and]
    · have hstay := (List.mem_filter.1 hp).2
      simpa [Watches.isLeft, hitem] using hstay

theorem View.told_trace (v : View) (m : Moved) :
    ∃ echoes, (v.told m).trace = echoes ++ v.trace ∧ ∀ notice ∈ echoes, notice.isEcho := by
  obtain heq | heq := v.told_eq m
  · exact ⟨[], by rw [heq]; rfl, by simp⟩
  · obtain ⟨echoes, htrace, hechoes, -⟩ := v.hear_trace m
    exact ⟨echoes, by rw [heq, htrace], hechoes⟩

theorem View.mem_trace_hear {v : View} {m : Moved} {notice : Notice} (h : notice.isEcho = false) :
    notice ∈ (v.hear m).trace ↔ notice ∈ v.trace := by
  obtain ⟨echoes, htrace, hechoes, -⟩ := v.hear_trace m
  rw [htrace, List.mem_append, or_iff_right]
  intro hnotice
  simp [hechoes notice hnotice] at h

theorem View.mem_trace_told {v : View} {m : Moved} {notice : Notice} (h : notice.isEcho = false) :
    notice ∈ (v.told m).trace ↔ notice ∈ v.trace := by
  obtain heq | heq := v.told_eq m
  · rw [heq]
  · rw [heq, mem_trace_hear h]

theorem View.hear_watches (v : View) (m : Moved) : (v.hear m).watches.Sublist v.watches := by
  unfold View.hear
  split
  · exact .refl _
  · exact List.filter_sublist

theorem View.told_watches (v : View) (m : Moved) : (v.told m).watches.Sublist v.watches := by
  obtain heq | heq := v.told_eq m
  · exact heq.symm ▸ List.Sublist.refl _
  · exact heq.symm ▸ v.hear_watches m

@[simp] theorem View.hear_limit (v : View) (m : Moved) : (v.hear m).limit = v.limit := by
  unfold View.hear
  split <;> rfl

@[simp] theorem View.hear_wired (v : View) (m : Moved) : (v.hear m).wired = v.wired := by
  unfold View.hear
  split <;> rfl

@[simp] theorem View.hear_clock (v : View) (m : Moved) : (v.hear m).clock = v.clock := by
  unfold View.hear
  split <;> rfl

@[simp] theorem View.hear_items (v : View) (m : Moved) : (v.hear m).items = v.items := by
  unfold View.hear
  split <;> rfl

@[simp] theorem View.hear_registry (v : View) (m : Moved) :
    (v.hear m).registry = v.registry := by
  unfold View.hear
  split <;> rfl

@[simp] theorem View.hear_rules (v : View) (m : Moved) : (v.hear m).rules = v.rules := by
  unfold View.hear
  split <;> rfl

@[simp] theorem View.hear_taken (v : View) (m : Moved) : (v.hear m).taken = v.taken := by
  unfold View.hear
  split <;> rfl

@[simp] theorem View.told_limit (v : View) (m : Moved) : (v.told m).limit = v.limit := by
  unfold View.told
  split <;> simp

@[simp] theorem View.told_wired (v : View) (m : Moved) : (v.told m).wired = v.wired := by
  unfold View.told
  split <;> simp

@[simp] theorem View.told_clock (v : View) (m : Moved) : (v.told m).clock = v.clock := by
  unfold View.told
  split <;> simp

@[simp] theorem View.told_items (v : View) (m : Moved) : (v.told m).items = v.items := by
  unfold View.told
  split <;> simp

@[simp] theorem View.told_registry (v : View) (m : Moved) :
    (v.told m).registry = v.registry := by
  unfold View.told
  split <;> simp

@[simp] theorem View.told_rules (v : View) (m : Moved) : (v.told m).rules = v.rules := by
  unfold View.told
  split <;> simp

@[simp] theorem View.told_taken (v : View) (m : Moved) : (v.told m).taken = v.taken := by
  unfold View.told
  split <;> simp

theorem Step.limit {v v' : View} (h : Step terms v v') : v'.limit = v.limit := by
  cases h <;> simp [View.store, View.create, View.commit, View.log, View.heed, View.arm,
    View.collect, View.disarm, View.logAll]

theorem Step.wired {v v' : View} (h : Step terms v v') : v'.wired = v.wired := by
  cases h <;> simp [View.store, View.create, View.commit, View.log, View.heed, View.arm,
    View.collect, View.disarm, View.logAll]

/-- Items are never lost. -/
theorem Step.has {v v' : View} (h : Step terms v v') {id : String} (hid : v.items.has id) :
    v'.items.has id := by
  cases h <;> simp [View.store, View.create, View.commit, View.log, View.heed, View.arm,
    View.collect, View.disarm, View.logAll, hid, Table.has_put]

/-- A rule book stays as it was learned. -/
theorem Step.book {v v' : View} (h : Step terms v v') {key : String × Int} {book : RuleBook}
    (hbook : v.rules.get? key = some book) : v'.rules.get? key = some book := by
  cases h with
  | @learned _ team version bound free =>
    have hne : key ≠ (team, version) := by
      rintro rfl
      simp [free] at hbook
    simpa [Table.get?_put_of_ne hne] using hbook
  | _ => simpa [View.store, View.create, View.commit, View.log, View.heed, View.arm, View.collect,
      View.disarm, View.logAll] using hbook

/-- A step adds to the trace, and puts no watch into the table but one that it arms. -/
theorem Step.arms {v v' : View} (h : Step terms v v') :
    ∃ news, v'.trace = news ++ v.trace ∧ (v'.watches.Sublist v.watches ∨
      ∃ watch, news = [.armed watch] ∧ v'.watches = v.watches.put watch.key watch) := by
  cases h with
  | @created w team id complexity attributes stage actor =>
    obtain ⟨echoes, htrace, -⟩ := View.told_trace _ (v.birth w team id stage actor)
    exact ⟨echoes ++ [_], htrace.trans (List.append_cons ..), .inl (View.told_watches ..)⟩
  | @committed _ item _ move actor =>
    obtain ⟨echoes, htrace, -⟩ := View.told_trace _ (move.event item actor v.clock)
    exact ⟨echoes ++ [_], htrace.trans (List.append_cons ..), .inl (View.told_watches ..)⟩
  | @heard m =>
    obtain ⟨echoes, htrace, -⟩ := v.hear_trace m
    exact ⟨echoes, htrace, .inl (v.hear_watches m)⟩
  | heeded | collected => exact ⟨[_], rfl, .inl List.filter_sublist⟩
  | disarmed => exact ⟨List.reverse _, rfl, .inl List.filter_sublist⟩
  | armed => exact ⟨[_], rfl, .inr ⟨_, rfl, rfl⟩⟩
  | ignored | unknown | broke | promoted => exact ⟨[_], rfl, .inl (.refl _)⟩
  | _ => exact ⟨[], rfl, .inl (.refl _)⟩

/-- Along steps, a watch comes into the table only by being armed. -/
theorem Steps.arms {v v' : View} (h : Steps terms v v') :
    ∃ news, v'.trace = news ++ v.trace ∧
      ∀ p ∈ v'.watches, p ∈ v.watches ∨ .armed p.2 ∈ news := by
  induction h with
  | refl => exact ⟨[], rfl, fun p hp => .inl hp⟩
  | tail _ hs ih =>
    obtain ⟨older, htrace, hold⟩ := ih
    obtain ⟨news, hnews, htable⟩ := hs.arms
    refine ⟨news ++ older, by rw [hnews, htrace, List.append_assoc], fun p hp => ?_⟩
    obtain hless | ⟨watch, rfl, hput⟩ := htable
    · exact (hold p (hless.subset hp)).imp_right (List.mem_append_right _)
    · obtain rfl | hp := Table.mem_put (hput ▸ hp)
      · exact .inr List.mem_cons_self
      · exact (hold p hp).imp_right (List.mem_append_right _)

theorem Steps.limit {v v' : View} (h : Steps terms v v') : v'.limit = v.limit := by
  induction h with
  | refl => rfl
  | tail _ hs ih => exact hs.limit.trans ih

theorem Steps.has {v v' : View} (h : Steps terms v v') {id : String} (hid : v.items.has id) :
    v'.items.has id := by
  induction h with
  | refl => exact hid
  | tail _ hs ih => exact hs.has ih

/-- What holds of a view and is preserved by every step holds of every view that is reached. -/
theorem Steps.invariant {P : View → Prop} (hstep : ∀ v v', P v → Step terms v v' → P v')
    {v v' : View} (h : Steps terms v v') (hv : P v) : P v' := by
  induction h with
  | refl => exact hv
  | tail _ hs ih => exact hstep _ _ ih hs

/-! ## Sound systems -/

/-- Whether every stored document stands under its own id. -/
def Source.Keyed (source : Source) : Prop :=
  ∀ team document, source.document? team = some document → document.id = team

/-- Items and documents stand under their own ids. -/
structure System.Sound (s : System) : Prop where
  items : ∀ id item, s.items.get? id = some item → item.id = id
  source : s.source.Keyed

/-- A system that is left behind by one: it is sound, at the same time, and in view of it. -/
structure Evolves (terms : Terms) (s t : System) : Prop where
  sound : t.Sound
  clock : t.clock = s.clock
  steps : ∀ taken, Steps terms (s.view taken) (t.view taken)

/-- A system that is reached from another one between operations, with no watch out of the table. -/
structure Reaches (terms : Terms) (s t : System) : Prop where
  sound : t.Sound
  steps : Steps terms (s.view []) (t.view [])

namespace Reaches

variable {s₀ s t : System}

theorem refl (h : s.Sound) : Reaches terms s s := ⟨h, .refl⟩

theorem trans (h : Reaches terms s₀ s) (ht : Reaches terms s t) : Reaches terms s₀ t :=
  ⟨ht.sound, h.steps.trans ht.steps⟩

end Reaches

/-- Whether an event is what its issuer knows at the time. -/
def System.Genuine (s : System) (event : Event) : Prop := (s.view []).Genuine event

namespace Evolves

variable {s₀ s t : System}

theorem refl (h : s.Sound) : Evolves terms s s := ⟨h, rfl, fun _ => .refl⟩

theorem trans (h : Evolves terms s₀ s) (ht : Evolves terms s t) : Evolves terms s₀ t :=
  ⟨ht.sound, ht.clock.trans h.clock, fun taken => (h.steps taken).trans (ht.steps taken)⟩

/-- One step further. -/
theorem step (h : Evolves terms s₀ s) (sound : t.Sound) (clock : t.clock = s.clock)
    (hs : ∀ taken, Step terms (s.view taken) (t.view taken)) : Evolves terms s₀ t :=
  ⟨sound, clock.trans h.clock, fun taken => (h.steps taken).tail (hs taken)⟩

/-- A change out of view. -/
theorem unseen (h : Evolves terms s₀ s) (view : ∀ taken, t.view taken = s.view taken)
    (source : t.source = s.source) : Evolves terms s₀ t where
  sound :=
    { items := by
        have hitems : t.items = s.items := congrArg View.items (view [])
        simpa [hitems] using h.sound.items
      source := source ▸ h.sound.source }
  clock := (congrArg View.clock (view [])).trans h.clock
  steps taken := view taken ▸ h.steps taken

theorem reaches (h : Evolves terms s₀ s) : Reaches terms s₀ s := ⟨h.sound, h.steps []⟩

theorem limit (h : Evolves terms s₀ s) :
    s.settings.maxCascadeDepth = s₀.settings.maxCascadeDepth := (h.steps []).limit

theorem has (h : Evolves terms s₀ s) {id : String} (hid : s₀.items.has id) : s.items.has id :=
  (h.steps []).has hid

/-- A genuine event stays genuine. -/
theorem genuine (h : Evolves terms s₀ s) {event : Event} (he : s₀.Genuine event) :
    s.Genuine event := by
  cases event with
  | moved m => exact ⟨he.1.trans h.clock.symm, h.has he.2⟩
  | signal signal =>
    have hclock : (s.view []).clock = (s₀.view []).clock := h.clock
    simpa [System.Genuine, View.Genuine, hclock] using he

end Evolves

namespace Run

variable {s₀ : System} {α β : Type}

/-! ## Computations out of view -/

theorem keeps_modify {change : System → System}
    (view : ∀ s taken, (change s).view taken = s.view taken)
    (source : ∀ s, (change s).source = s.source) :
    Keeps (Evolves terms s₀) (modify change : Run PUnit) :=
  .modify fun s hs => hs.unseen (view s) (source s)

theorem trace_note {notice : Notice} (h : notice.isTraced = false) (s : System) :
    ({ s with journal := notice :: s.journal } : System).trace = s.trace := by
  simp [System.trace, h]

theorem view_note {notice : Notice} (h : notice.isTraced = false) (s : System)
    (taken : List Taken) :
    ({ s with journal := notice :: s.journal } : System).view taken = s.view taken := by
  simp [System.view, trace_note h, System.isWired]

/-- Other notes do not. -/
theorem view_untraced {notices : List Notice} (h : ∀ notice ∈ notices, notice.isTraced = false)
    (s : System) (taken : List Taken) :
    ({ s with journal := notices ++ s.journal } : System).view taken = s.view taken := by
  have htrace : (notices.filter (·.isTraced)) = [] :=
    List.filter_eq_nil_iff.2 fun notice hn => by simp [h notice hn]
  simp [System.view, System.trace, System.isWired, htrace]

/-- Traced notes come into view. -/
theorem view_logAll {notices : List Notice} (h : ∀ notice ∈ notices, notice.isTraced) (s : System)
    (taken : List Taken) :
    ({ s with journal := notices.reverse ++ s.journal } : System).view taken =
      (s.view taken).logAll notices := by
  have htraced : notices.filter (·.isTraced) = notices := List.filter_eq_self.2 h
  simp [System.view, System.trace, View.logAll, System.isWired, List.filter_reverse, htraced]

theorem keeps_note {notice : Notice} (h : notice.isTraced = false) :
    Keeps (Evolves terms s₀) (note notice) :=
  keeps_modify (view_note h) fun _ => rfl

/-- Notes made one after another. -/
theorem forM_note (f : α → Notice) (xs : List α) (s : System) :
    (xs.forM fun x => note (f x)) s =
      .ok () { s with journal := (xs.map f).reverse ++ s.journal } := by
  induction xs generalizing s with
  | nil => rfl
  | cons x xs ih =>
    change (xs.forM fun x => note (f x)) { s with journal := f x :: s.journal } = _
    simp [ih]

end Run

end Stageflow
