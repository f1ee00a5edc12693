import Mathlib.Data.List.Perm.Subperm
import Stageflow.Proofs.Evolution.Session

/-!
# Armings and their ends

A watch ends in a promotion, in a break, or without a word. `net` counts the armings in a trace
against the promotions and breaks; what is left over covers the watches in the table and those that
were taken out of it, so no arming ends twice.
-/

namespace Stageflow

/-! ## Counting -/

namespace Notice

/-- The watch that was armed. -/
def armed? : Notice → Option Watch
  | .armed watch => some watch
  | _ => none

/-- The watch that was promoted. -/
def promoted? : Notice → Option Watch
  | .promoted watch _ => some watch
  | _ => none

/-- The watch of which a break was taken. -/
def broken? : Notice → Option Watch
  | .broken watch _ => some watch
  | _ => none

/-- One for the arming of a chosen watch, minus one for its promotion and for its break. -/
def delta (chosen : Watch → Bool) : Notice → Int
  | .armed watch => if chosen watch then 1 else 0
  | .promoted watch _ | .broken watch _ => if chosen watch then -1 else 0
  | _ => 0

end Notice

/-- The armed watches in a trace, each as often as it was armed. -/
def armings (trace : List Notice) : List Watch := trace.filterMap Notice.armed?

/-- The promoted watches in a trace. -/
def promotions (trace : List Notice) : List Watch := trace.filterMap Notice.promoted?

/-- The broken watches in a trace. -/
def breaks (trace : List Notice) : List Watch := trace.filterMap Notice.broken?

/-- Armings less promotions and breaks of chosen watches. -/
def net (chosen : Watch → Bool) : List Notice → Int
  | [] => 0
  | notice :: trace => notice.delta chosen + net chosen trace

variable {chosen : Watch → Bool}

@[simp] theorem net_nil : net chosen [] = 0 := rfl

@[simp] theorem net_cons (notice : Notice) (trace : List Notice) :
    net chosen (notice :: trace) = notice.delta chosen + net chosen trace := rfl

@[simp] theorem net_append (newer older : List Notice) :
    net chosen (newer ++ older) = net chosen newer + net chosen older := by
  induction newer with
  | nil => simp
  | cons notice newer ih =>
    rw [List.cons_append, net_cons, net_cons, ih]
    omega

theorem net_eq_zero {trace : List Notice} (h : ∀ notice ∈ trace, notice.delta chosen = 0) :
    net chosen trace = 0 := by
  induction trace with
  | nil => rfl
  | cons notice trace ih =>
    rw [net_cons, h notice (by simp), ih fun n hn => h n (by simp [hn]), Int.zero_add]

theorem net_eq (trace : List Notice) :
    net chosen trace =
      (armings trace).countP chosen - (promotions trace).countP chosen -
        (breaks trace).countP chosen := by
  induction trace with
  | nil => rfl
  | cons notice trace ih =>
    rw [net_cons, ih]
    cases notice <;>
      simp [Notice.delta, armings, promotions, breaks, Notice.armed?, Notice.promoted?,
        Notice.broken?, List.filterMap_cons, List.countP_cons] <;>
      split <;> omega

/-! ## Balance -/

/-- The watch that was taken out of the table. -/
def Taken.watch : Taken → Watch
  | .due watch _ => watch
  | .broken watch _ => watch

/-- What armings cover: the chosen watches in the table, and those out of it. -/
def View.open (v : View) (chosen : Watch → Bool) : Nat :=
  v.watches.values.countP chosen + (v.taken.map Taken.watch).countP chosen

/-- Watches stand under their own keys, armings cover all open watches, and no end was without an
arming at any moment. -/
structure View.Balanced (v : View) : Prop where
  keyed : ∀ p ∈ v.watches, p.1 = p.2.key
  covered : ∀ chosen, v.open chosen ≤ net chosen v.trace
  always : ∀ past, past <:+ v.trace → ∀ chosen, 0 ≤ net chosen past

namespace View.Balanced

variable {v v' : View}

/-- What armings, promotions and breaks do not add to stays balanced while watches only go. -/
theorem shrink (h : v.Balanced) (news : List Notice) (trace : v'.trace = news ++ v.trace)
    (quiet : ∀ notice ∈ news, ∀ chosen, notice.delta chosen = 0)
    (watches : v'.watches.Sublist v.watches) (taken : v'.taken.Sublist v.taken) :
    v'.Balanced where
  keyed p hp := h.keyed p (watches.subset hp)
  covered chosen := by
    have hwatches : v'.watches.values.countP chosen ≤ v.watches.values.countP chosen :=
      (watches.map _).countP_le
    have htaken : (v'.taken.map Taken.watch).countP chosen ≤
        (v.taken.map Taken.watch).countP chosen :=
      (taken.map _).countP_le
    have hnews : net chosen news = 0 := net_eq_zero fun n hn => quiet n hn chosen
    have := h.covered chosen
    rw [trace, net_append, hnews]
    simp only [View.open] at this ⊢
    omega
  always past hpast chosen := by
    rw [trace] at hpast
    obtain hold | hnew := List.suffix_or_suffix_of_suffix hpast (List.suffix_append news v.trace)
    · exact h.always past hold chosen
    · obtain ⟨some, rfl⟩ := hnew
      have hquiet : net chosen some = 0 :=
        net_eq_zero fun n hn => quiet n ((List.suffix_append_self_iff.1 hpast).subset hn) chosen
      have := h.always v.trace List.suffix_rfl chosen
      rw [net_append, hquiet]
      omega

/-- A notice is added, and the watches it leaves open are still covered. -/
theorem cons (h : v.Balanced) {notice : Notice} (trace : v'.trace = notice :: v.trace)
    (keyed : ∀ p ∈ v'.watches, p.1 = p.2.key)
    (covered : ∀ chosen, v'.open chosen ≤ v.open chosen + notice.delta chosen) : v'.Balanced where
  keyed := keyed
  covered chosen := by
    have := h.covered chosen
    have := covered chosen
    rw [trace, net_cons]
    omega
  always past hpast chosen := by
    rw [trace] at hpast
    obtain rfl | hpast := List.suffix_cons_iff.1 hpast
    · have := h.covered chosen
      have := covered chosen
      rw [net_cons]
      omega
    · exact h.always past hpast chosen

theorem hear (h : v.Balanced) (m : Moved) : (v.hear m).Balanced := by
  obtain ⟨echoes, htrace, hechoes, -⟩ := v.hear_trace m
  refine h.shrink echoes htrace (fun notice hnotice chosen => ?_) (v.hear_watches m) (by simp)
  have hecho := hechoes notice hnotice
  cases notice <;> simp_all [Notice.isEcho, Notice.delta]

theorem told (h : v.Balanced) (m : Moved) : (v.told m).Balanced := by
  obtain heq | heq := v.told_eq m
  · rw [heq]
    exact h
  · rw [heq]
    exact h.hear m

/-- Broken watches leave the table. -/
theorem heed (h : v.Balanced) (signal : Signal) : (v.heed signal).Balanced := by
  refine h.cons rfl (fun p hp => h.keyed p (List.filter_sublist.subset hp)) fun chosen => ?_
  have hbroken : (v.brokenBy signal).countP chosen =
      (v.watches.filter fun p => v.breaks signal p.2).countP (chosen ·.2) := by
    rw [View.brokenBy_eq, Table.values, List.filter_map, List.countP_map]
    rfl
  have hkept : (v.heed signal).watches.countP (chosen ·.2) ≤
      (v.watches.filter fun p => !v.breaks signal p.2).countP (chosen ·.2) := by
    simp only [View.heed, Table.select, List.countP_filter]
    refine List.countP_mono_left fun p hp hkept => ?_
    simp only [Bool.and_eq_true, Bool.not_eq_true', List.any_eq_false, decide_eq_true_eq] at hkept ⊢
    refine ⟨hkept.1, Bool.eq_false_iff.2 fun hbreaks => hkept.2 p.2 ?_ (h.keyed p hp).symm⟩
    exact View.brokenBy_eq v signal ▸
      List.mem_filter.2 ⟨List.mem_map_of_mem hp, hbreaks⟩
  have hsplit :=
    List.countP_eq_countP_filter_add v.watches (chosen ·.2) fun p => v.breaks signal p.2
  have htaken : ((v.heed signal).taken.map Taken.watch).countP chosen =
      (v.brokenBy signal).countP chosen + (v.taken.map Taken.watch).countP chosen := by
    simp [View.heed, List.countP_append, Function.comp_def, Taken.watch]
  simp only [View.open, Table.values, List.countP_map, Function.comp_def, Notice.delta] at *
  omega

/-- Due watches leave the table. -/
theorem collect (h : v.Balanced) (now : Instant) : (v.collect now).Balanced := by
  refine h.cons rfl (fun p hp => h.keyed p (List.filter_sublist.subset hp)) fun chosen => ?_
  have hdue : (v.watches.due now).countP chosen =
      (v.watches.filter fun p => decide (p.2.dueAt ≤ now)).countP (chosen ·.2) := by
    rw [Watches.due, (sortBy_perm _ _).countP_eq, Table.values, List.filter_map,
      List.countP_map]
    rfl
  have hsplit := List.countP_eq_countP_filter_add v.watches (chosen ·.2)
    fun p => decide (p.2.dueAt ≤ now)
  have htaken : ((v.collect now).taken.map Taken.watch).countP chosen =
      (v.watches.due now).countP chosen + (v.taken.map Taken.watch).countP chosen := by
    simp [View.collect, List.countP_append, Function.comp_def, Taken.watch]
  have hkept : (v.collect now).watches = v.watches.filter fun p => !decide (p.2.dueAt ≤ now) := rfl
  simp only [View.open, Table.values, List.countP_map, Function.comp_def, Notice.delta] at *
  rw [hkept]
  omega

/-- An armed watch replaces the one under its key. -/
theorem arm (h : v.Balanced) (watch : Watch) : (v.arm watch).Balanced := by
  refine h.cons rfl (fun p hp => ?_) fun chosen => ?_
  · obtain rfl | hp := Table.mem_put hp
    · rfl
    · exact h.keyed p hp
  · have := Table.countP_values_put watch.key watch v.watches chosen
    simp only [View.open, View.arm, View.log, Notice.delta]
    by_cases hchosen : chosen watch <;>
      simp only [hchosen, if_true, Bool.false_eq_true, if_false] at * <;>
      omega

/-- A watch that was taken out of the table ends. -/
theorem finish (h : v.Balanced) {notice : Notice} {watch : Taken} {rest : List Taken}
    (taken : v.taken = watch :: rest)
    (delta : ∀ chosen, notice.delta chosen = if chosen watch.watch then -1 else 0) :
    ({ v.log notice with taken := rest } : View).Balanced := by
  refine h.cons rfl h.keyed fun chosen => ?_
  simp only [View.open, taken, delta, List.map_cons, List.countP_cons, View.log]
  split <;> omega

/-- Every step keeps the balance. -/
theorem step {terms : Terms} (h : v.Balanced) (hs : Step terms v v') : v'.Balanced := by
  have still {v' : View} (trace : v'.trace = v.trace) (watches : v'.watches = v.watches)
      (taken : v'.taken = v.taken) : v'.Balanced :=
    h.shrink [] trace (by simp) (watches ▸ .refl _) (taken ▸ .refl _)
  have noted {v' : View} {notice : Notice} (trace : v'.trace = notice :: v.trace)
      (quiet : ∀ chosen, notice.delta chosen = 0) (watches : v'.watches = v.watches)
      (taken : v'.taken = v.taken) : v'.Balanced :=
    h.shrink [notice] trace (by simpa using quiet) (watches ▸ .refl _) (taken ▸ .refl _)
  cases hs with
  | amended | rebound | learned | published | elapsed => exact still rfl rfl rfl
  | ignored | unknown => exact noted rfl (fun _ => rfl) rfl rfl
  | created =>
    refine View.Balanced.told ?_ _
    exact noted rfl (fun _ => rfl) rfl rfl
  | committed =>
    refine View.Balanced.told ?_ _
    exact noted rfl (fun _ => rfl) rfl rfl
  | heard => exact h.hear _
  | heeded => exact h.heed _
  | armed => exact h.arm _
  | collected => exact h.collect _
  | broke taken => exact h.finish taken fun _ => rfl
  | promoted taken => exact h.finish taken fun _ => rfl
  | abandoned taken =>
    exact h.shrink [] rfl (by simp) (.refl _) (taken ▸ List.sublist_cons_self _ _)
  | disarmed item rule =>
    refine h.shrink (List.reverse _) rfl ?_ List.filter_sublist (.refl _)
    simp [Notice.delta]

end View.Balanced

/-! ## Sessions -/

/-- At every moment of a session, watches were promoted and broken at most as often as they were
armed, under every key; each arming ends at most once. -/
theorem ends_le_armings {s : System} (new : s.New) (ops : List Operation) {past : List Notice}
    (moment : past <:+ (s.through ops).trace) :
    (∀ key, (promotions past).countP (·.key = key) + (breaks past).countP (·.key = key) ≤
      (armings past).countP (·.key = key)) ∧
    (promotions past ++ breaks past).Subperm (armings past) := by
  have hstart : (s.view []).Balanced := by
    refine ⟨?_, fun chosen => ?_, fun past hpast chosen => ?_⟩
    · simp [System.view, new.watches]
    · simp [View.open, System.view, new.watches, new.trace, Table.values]
    · obtain rfl : past = [] := by simpa [System.view, new.trace] using hpast
      simp
  have hend : ((s.through ops).view []).Balanced :=
    invariant_loose (fun _ _ h hs => h.step hs) new.sound hstart ops
  have hcount (chosen : Watch → Bool) :
      (promotions past).countP chosen + (breaks past).countP chosen ≤
        (armings past).countP chosen := by
    have := hend.always past moment chosen
    rw [net_eq] at this
    omega
  refine ⟨fun key => hcount _, ?_⟩
  classical
  refine List.subperm_ext_iff.2 fun watch _ => ?_
  simpa [List.count, List.countP_append] using hcount (· == watch)

/-- Armed twice, broken once and promoted once. -/
def twiceArmed : List Operation :=
  sampleSession [.obj [("id", .str "slow"), ("trigger", .str "ping"), ("duration", .str "1h"),
      ("break_on", .arr [.str "stop"])]] ++
    [.create { team := "t", id := some "i" }, .ingest { type := "ping", item := some "i" },
      .ingest { type := "stop", item := some "i" }, .ingest { type := "ping", item := some "i" },
      .advance (.int 4000), .tick none]

theorem ends_le_armings_twiceArmed :
    (promotions (System.through {} twiceArmed).trace).length = 1 ∧
    (breaks (System.through {} twiceArmed).trace).length = 1 ∧
    (armings (System.through {} twiceArmed).trace).length = 2 ∧
    (promotions (System.through {} twiceArmed).trace ++
      breaks (System.through {} twiceArmed).trace).Subperm
        (armings (System.through {} twiceArmed).trace) :=
  ⟨by decide +kernel, by decide +kernel, by decide +kernel,
    (ends_le_armings (System.new_default {}) twiceArmed List.suffix_rfl).2⟩

end Stageflow
