import Mathlib.Data.List.Infix
import Stageflow.Proofs.Endings
import Stageflow.Proofs.Histories

/-!
# Continuity of deferred rules

A promoted watch was armed, and taken out of the table by the tick that promoted it. Between the
arming and that tick no signal was handled that breaks it; and its item stayed in the status of the
watch, if it was there when the watch was armed and no move of it to another status was dropped
since.
-/

namespace Stageflow

variable {terms : Terms} {v v' : View}

/-! ## Watches and their traces -/

/-- Whether automation could follow the item of a watch: the item was in the status of the watch
when that was armed, and no move of it to another status was dropped since. -/
structure Watch.Followed (watch : Watch) (since rest : List Notice) : Prop where
  status : statusIn rest watch.item = some watch.status
  heard : ∀ m limit, .dropped (.moved m) limit ∈ since → m.item = watch.item →
    m.target = watch.status

/-- What holds from the arming of a watch up to a time: `rest` is the trace before the arming, and
`since` the one behind it. -/
structure View.Watched (v : View) (watch : Watch) (stop : Instant) (since rest : List Notice) :
    Prop where
  latest : ∀ other, .armed other ∈ since → other.key ≠ watch.key
  known : ∃ book, v.rules.get? (watch.team, watch.workflowVersion) = some book
  stored : v.items.has watch.item
  unbroken : ∀ signal, .handled (.signal signal) ∈ since → v.breaks signal watch = false
  held : watch.Followed since rest → ∀ item, v.items.get? watch.item = some item →
    item.Held watch.status watch.armedAt stop

/-- Whether an armed watch was armed as its trace says, and its item is still where it was followed.
-/
def View.Waits (v : View) (watch : Watch) : Prop :=
  ∃ since rest, v.trace = since ++ .armed watch :: rest ∧
    v.Watched watch v.clock since rest ∧
      (watch.Followed since rest → ∀ item, v.items.get? watch.item = some item →
        item.status = watch.status)

/-- Whether a trace tells of no start of a tick, so that the last one goes on. -/
def Ticking (trace : List Notice) : Prop := ∀ watches now, .collected watches now ∉ trace

/-- Whether a watch was armed and then taken by the last tick, as a trace says. -/
def View.WasTaken (v : View) (watch : Watch) (now : Instant) (trace : List Notice) : Prop :=
  ∃ inTick watches since rest,
    trace = inTick ++ .collected watches now :: (since ++ .armed watch :: rest) ∧
      Ticking inTick ∧ watch ∈ watches ∧ now.micros ≤ v.clock.micros ∧
      v.Watched watch now since rest

/-- The rule of a watch stays, once the rules of its version are known. -/
theorem Step.ruleOf? (h : Step terms v v') {watch : Watch}
    (known : ∃ book, v.rules.get? (watch.team, watch.workflowVersion) = some book) :
    Run.ruleOf? v'.automation watch = Run.ruleOf? v.automation watch := by
  obtain ⟨book, hbook⟩ := known
  simp only [Run.ruleOf?, View.automation, hbook, h.book hbook]

theorem Step.breaks (h : Step terms v v') {watch : Watch}
    (known : ∃ book, v.rules.get? (watch.team, watch.workflowVersion) = some book)
    (signal : Signal) : v'.breaks signal watch = v.breaks signal watch := by
  simp only [View.breaks, h.ruleOf? known]

/-- The past of a watch stays as it was. -/
theorem View.Watched.past {watch : Watch} {stop : Instant} {since rest : List Notice}
    (h : v.Watched watch stop since rest) (hv : v.Recorded) (hs : Step terms v v')
    (hstop : stop.micros ≤ v.clock.micros) : v'.Watched watch stop since rest where
  latest := h.latest
  known := by
    obtain ⟨book, hbook⟩ := h.known
    exact ⟨book, hs.book hbook⟩
  stored := hs.has h.stored
  unbroken signal hsignal := (hs.breaks h.known signal).trans (h.unbroken signal hsignal)
  held followed item hitem := by
    have hmakes := hs.makes hitem
    generalize hold : v.items.get? watch.item = old at hmakes
    cases hmakes with
    | same => exact h.held followed _ hold
    | amended amends =>
      intro stay hstay
      exact h.held followed _ hold stay (amends.history ▸ hstay)
    | rebound _ rebinds =>
      intro stay hstay
      exact h.held followed _ hold stay (rebinds.history ▸ hstay)
    | @moved _ old =>
      exact Item.held_moveTo (hv.dated _ old hold) hstop (h.held followed old hold)
    | created =>
      have := h.stored
      simp [Table.has, hold] at this

/-- Whether what was added to a trace leaves a watch alone: it is not armed again nor broken, and
its item is not moved elsewhere without a word. -/
structure View.Spares (v : View) (watch : Watch) (news : List Notice) : Prop where
  latest : ∀ other, .armed other ∈ news → other.key ≠ watch.key
  unbroken : ∀ signal, .handled (.signal signal) ∈ news → v.breaks signal watch = false
  stays : (∀ m limit, .dropped (.moved m) limit ∈ news → m.item = watch.item →
    m.target = watch.status) → ∀ m ∈ moves news, m.item = watch.item → m.target = watch.status

theorem statusIn_append {newer older : List Notice} {id status : String}
    (hnewer : ∀ m ∈ moves newer, m.item = id → m.target = status)
    (holder : statusIn older id = some status) : statusIn (newer ++ older) id = some status := by
  unfold statusIn at holder ⊢
  rw [moves_append, List.find?_append]
  cases hfind : (moves newer).find? (·.item = id) with
  | none => simpa using holder
  | some m =>
    have hid : m.item = id := by simpa using List.find?_some hfind
    simp [hnewer m (List.mem_of_find?_eq_some hfind) hid]

/-- A waiting watch that is left alone goes on waiting. -/
theorem View.Waits.later {watch : Watch} (h : v.Waits watch) (hv : v.Recorded)
    (hv' : v'.Recorded) (hs : Step terms v v') (hclock : v'.clock = v.clock) (news : List Notice)
    (htrace : v'.trace = news ++ v.trace) (spares : v.Spares watch news) : v'.Waits watch := by
  obtain ⟨since, rest, hrest, watched, stays⟩ := h
  have hfollowed (followed : watch.Followed (news ++ since) rest) : watch.Followed since rest :=
    ⟨followed.status, fun m limit hm => followed.heard m limit (List.mem_append_right _ hm)⟩
  have past := watched.past hv hs (Int.le_refl _)
  refine ⟨news ++ since, rest, by rw [htrace, hrest, List.append_assoc], ?_, ?_⟩
  · refine ⟨fun other hother => ?_, past.known, past.stored, fun signal hsignal => ?_, ?_⟩
    · obtain hother | hother := List.mem_append.1 hother
      · exact spares.latest other hother
      · exact past.latest other hother
    · obtain hsignal | hsignal := List.mem_append.1 hsignal
      · exact (hs.breaks watched.known signal).trans (spares.unbroken signal hsignal)
      · exact past.unbroken signal hsignal
    · rw [hclock]
      exact fun followed => past.held (hfollowed followed)
  · intro followed item hitem
    obtain ⟨old, hold⟩ := Option.isSome_iff_exists.1 watched.stored
    have hstatus := stays (hfollowed followed) old hold
    have hthen : statusIn v.trace watch.item = some watch.status := by
      rw [hv.told, hold, Option.map_some, hstatus]
    have hnow : statusIn v'.trace watch.item = some watch.status := by
      rw [htrace]
      refine statusIn_append (spares.stays fun m limit hm => ?_) hthen
      exact followed.heard m limit (List.mem_append_left _ hm)
    rw [hv'.told, hitem, Option.map_some] at hnow
    exact Option.some.inj hnow

/-! ## The invariant -/

namespace View.WasTaken

variable {watch : Watch} {now : Instant} {trace : List Notice}

theorem past (h : v.WasTaken watch now trace) (hv : v.Recorded) (hs : Step terms v v')
    (timely : terms.timely) : v'.WasTaken watch now trace := by
  obtain ⟨inTick, watches, since, rest, htrace, ticking, hmem, hnow, watched⟩ := h
  exact ⟨inTick, watches, since, rest, htrace, ticking, hmem,
    Int.le_trans hnow (hs.clock timely), watched.past hv hs hnow⟩

theorem extend (h : v.WasTaken watch now trace) {news : List Notice} (hnews : Ticking news) :
    v.WasTaken watch now (news ++ trace) := by
  obtain ⟨inTick, watches, since, rest, htrace, ticking, hrest⟩ := h
  refine ⟨news ++ inTick, watches, since, rest, by rw [htrace, List.append_assoc],
    fun watches now hmem => ?_, hrest⟩
  obtain hmem | hmem := List.mem_append.1 hmem
  · exact hnews watches now hmem
  · exact ticking watches now hmem

end View.WasTaken

/-- Watches in the table wait, due ones were taken, and promoted ones were taken before. -/
structure View.Continuous (v : View) : Prop where
  recorded : v.Recorded
  wired : v.wired
  keys : v.watches.keys.Nodup
  keyed : ∀ p ∈ v.watches, p.1 = p.2.key
  waits : ∀ p ∈ v.watches, v.Waits p.2
  due : ∀ watch now, .due watch now ∈ v.taken → v.WasTaken watch now v.trace
  promoted : ∀ newer older watch now, v.trace = newer ++ .promoted watch now :: older →
    v.WasTaken watch now older ∧ ∃ rule, Run.ruleOf? v.automation watch = some rule

/-- Whether a notice neither arms, takes nor promotes a watch, nor moves an item, nor tells of a
signal. -/
def Notice.isStill : Notice → Bool
  | .armed _ | .collected .. | .promoted .. | .created _ | .committed .. | .handled (.signal _) =>
    false
  | _ => true

/-- Whether a notice comes from a tick itself. -/
def Notice.isTick : Notice → Bool
  | .collected .. | .promoted .. => true
  | _ => false

theorem isTick_of_isStill {notice : Notice} (h : notice.isStill) : notice.isTick = false := by
  cases notice <;> first | rfl | cases h

theorem View.Spares.still {watch : Watch} {news : List Notice}
    (h : ∀ notice ∈ news, notice.isStill) : v.Spares watch news where
  latest other hother := by cases h _ hother
  unbroken signal hsignal := by cases h _ hsignal
  stays _ m hm := by
    obtain ⟨notice, hnotice, hmoved⟩ := List.mem_filterMap.1 hm
    have := h notice hnotice
    cases notice <;> simp_all [Notice.isStill, Notice.moved?]

theorem isStill_of_isEcho {notice : Notice} (h : notice.isEcho) : notice.isStill := by
  cases notice with
  | handled event => cases event <;> simp_all [Notice.isEcho, Notice.isStill]
  | _ => simp_all [Notice.isEcho, Notice.isStill]

/-- A promotion that stands in a trace stood there before what did not promote. -/
theorem promoted_of_append (news : List Notice) {trace newer older : List Notice} {watch : Watch}
    {now : Instant} (hnews : .promoted watch now ∉ news)
    (h : news ++ trace = newer ++ .promoted watch now :: older) :
    ∃ newer, trace = newer ++ .promoted watch now :: older := by
  obtain ⟨between, hnewer, htrace⟩ | ⟨between, hnews', hrest⟩ := List.append_eq_append_iff.1 h
  · exact ⟨between, htrace⟩
  · cases between with
    | nil => exact ⟨[], by simpa using hrest.symm⟩
    | cons notice between =>
      obtain ⟨rfl, -⟩ := List.cons.inj hrest
      exact absurd (by simp [hnews']) hnews

namespace View.Continuous

theorem later_due (hv : v.Continuous) (hs : Step terms v v') (timely : terms.timely)
    (news : List Notice) (htrace : v'.trace = news ++ v.trace) (hnews : Ticking news)
    {watch : Watch} {now : Instant} (h : .due watch now ∈ v.taken) :
    v'.WasTaken watch now v'.trace := by
  rw [htrace]
  exact ((hv.due watch now h).past hv.recorded hs timely).extend hnews

theorem later_promoted (hv : v.Continuous) (hs : Step terms v v') (timely : terms.timely)
    {newer older : List Notice} {watch : Watch} {now : Instant}
    (h : v.trace = newer ++ .promoted watch now :: older) :
    v'.WasTaken watch now older ∧ ∃ rule, Run.ruleOf? v'.automation watch = some rule := by
  obtain ⟨htaken, rule, hrule⟩ := hv.promoted newer older watch now h
  refine ⟨htaken.past hv.recorded hs timely, rule, ?_⟩
  obtain ⟨_, _, _, _, -, -, -, -, watched⟩ := htaken
  rw [hs.ruleOf? watched.known, hrule]

/-- What leaves the watches that remain alone, and neither takes nor promotes any, keeps the
invariant. -/
theorem later (hv : v.Continuous) (hs : Step terms v v') (timely : terms.timely)
    (hclock : v'.clock = v.clock) (news : List Notice) (htrace : v'.trace = news ++ v.trace)
    (hwatches : v'.watches.Sublist v.watches) (spares : ∀ p ∈ v'.watches, v.Spares p.2 news)
    (htaken : ∀ watch now, .due watch now ∈ v'.taken → .due watch now ∈ v.taken)
    (hnews : ∀ notice ∈ news, notice.isTick = false) : v'.Continuous where
  recorded := hv.recorded.step hs timely
  wired := hs.wired ▸ hv.wired
  keys := hv.keys.sublist (hwatches.map _)
  keyed p hp := hv.keyed p (hwatches.subset hp)
  waits p hp := (hv.waits p (hwatches.subset hp)).later hv.recorded (hv.recorded.step hs timely) hs
    hclock news htrace (spares p hp)
  due watch now hdue := hv.later_due hs timely news htrace (fun _ _ h => by cases hnews _ h)
    (htaken watch now hdue)
  promoted newer older watch now hsplit := by
    rw [htrace] at hsplit
    obtain ⟨newer', hsplit'⟩ := promoted_of_append news (fun h => by cases hnews _ h) hsplit
    exact hv.later_promoted hs timely hsplit'

/-- What adds only still notices keeps the invariant. -/
theorem still (hv : v.Continuous) (hs : Step terms v v') (timely : terms.timely)
    (hclock : v'.clock = v.clock) (news : List Notice) (htrace : v'.trace = news ++ v.trace)
    (hwatches : v'.watches.Sublist v.watches) (htaken : v'.taken.Sublist v.taken)
    (hstill : ∀ notice ∈ news, notice.isStill) : v'.Continuous :=
  hv.later hs timely hclock news htrace hwatches (fun _ _ => .still hstill)
    (fun _ _ h => htaken.subset h) fun _ h => isTick_of_isStill (hstill _ h)

/-- A move that automation is told of first ends the watches of the status that was left, unless it
is dropped. -/
theorem told {x : View} {m : Moved} {notice : Notice} (hv : v.Continuous)
    (hs : Step terms v (x.told m)) (timely : terms.timely) (hwired : x.wired = v.wired)
    (hclock : x.clock = v.clock) (htrace : x.trace = notice :: v.trace)
    (hwatches : x.watches = v.watches) (htaken : x.taken = v.taken)
    (hmoved : notice.moved? = some m) : (x.told m).Continuous := by
  have htold : x.told m = x.hear m := if_pos (hwired.trans hv.wired)
  obtain ⟨echoes, hechoes, hecho, hleft⟩ := x.hear_trace m
  have hstill (n : Notice) (hn : n ∈ echoes) : n.isStill := isStill_of_isEcho (hecho n hn)
  refine hv.later hs timely (by simpa using hclock) (echoes ++ [notice]) ?_ ?_ ?_ ?_ ?_
  · rw [htold, hechoes, htrace, List.append_assoc]
    rfl
  · rw [htold, ← hwatches]
    exact x.hear_watches m
  · intro p hp
    rw [htold] at hp
    refine ⟨fun other hother => ?_, fun signal hsignal => ?_, fun hheard m' hm' hitem => ?_⟩
    · obtain hother | hother := List.mem_append.1 hother
      · cases hstill _ hother
      · obtain rfl := List.mem_singleton.1 hother
        cases hmoved
    · obtain hsignal | hsignal := List.mem_append.1 hsignal
      · cases hstill _ hsignal
      · obtain rfl := List.mem_singleton.1 hsignal
        cases hmoved
    · rw [moves_append, moves_echoes hecho, List.nil_append] at hm'
      obtain rfl : m' = m := by simpa [moves, hmoved] using hm'
      obtain ⟨limit, hdropped⟩ | hstay := hleft
      · exact hheard m' limit (List.mem_append_left _ hdropped) hitem
      · exact (hstay p hp hitem.symm).symm
  · intro watch now h
    simpa [htaken] using h
  · intro n hn
    obtain hn | hn := List.mem_append.1 hn
    · exact isTick_of_isStill (hstill n hn)
    · obtain rfl := List.mem_singleton.1 hn
      cases n <;> first | rfl | cases hmoved

theorem heed (hv : v.Continuous) {signal : Signal} (hs : Step terms v (v.heed signal))
    (timely : terms.timely) : (v.heed signal).Continuous := by
  refine hv.later hs timely rfl [.handled (.signal signal)] rfl List.filter_sublist ?_ ?_
    (by simp [Notice.isTick])
  · intro p hp
    refine ⟨by simp, fun other hother => ?_, by simp [moves, Notice.moved?]⟩
    obtain rfl : other = signal := by simpa using hother
    obtain ⟨hmem, hkept⟩ := List.mem_filter.1 hp
    refine Bool.eq_false_iff.2 fun hbreaks => ?_
    have hbroken : p.2 ∈ v.brokenBy other :=
      View.brokenBy_eq v other ▸ List.mem_filter.2 ⟨List.mem_map_of_mem hmem, hbreaks⟩
    simp only [Bool.not_eq_true', List.any_eq_false, decide_eq_true_eq] at hkept
    exact hkept p.2 hbroken (hv.keyed p hmem).symm
  · intro watch now h
    simpa [View.heed] using h

theorem unknown (hv : v.Continuous) {signal : Signal} {id : String}
    (hs : Step terms v (v.log (.handled (.signal signal)))) (timely : terms.timely)
    (about : signal.item = some id) (unknown : v.items.get? id = none) :
    (v.log (.handled (.signal signal))).Continuous := by
  refine hv.later hs timely rfl [.handled (.signal signal)] rfl (.refl _) ?_ (fun _ _ h => h)
    (by simp [Notice.isTick])
  intro p hp
  refine ⟨by simp, fun other hother => ?_, by simp [moves, Notice.moved?]⟩
  obtain rfl : other = signal := by simpa using hother
  obtain ⟨_, _, -, watched, -⟩ := hv.waits p hp
  have hne : p.2.item ≠ id := by
    rintro rfl
    have := watched.stored
    simp [Table.has, unknown] at this
  simp [View.breaks, Signal.concerns, about, hne]

/-- A watch waits from its arming on. -/
theorem arm (hv : v.Continuous) {watch : Watch} {book : RuleBook} (hs : Step terms v (v.arm watch))
    (timely : terms.timely) (known : v.rules.get? (watch.team, watch.workflowVersion) = some book)
    (armedAt : watch.armedAt = v.clock) (stored : v.items.has watch.item) :
    (v.arm watch).Continuous := by
  have hrecorded := hv.recorded.step hs timely
  refine ⟨hrecorded, hv.wired, ?_, fun p hp => ?_, fun p hp => ?_, fun other now h => ?_,
    fun newer older other now hsplit => ?_⟩
  · exact Table.nodup_keys_put hv.keys
  · obtain rfl | ⟨hp, -⟩ := Table.mem_put_of_nodup hv.keys hp
    · rfl
    · exact hv.keyed p hp
  · obtain rfl | ⟨hold, hne⟩ := Table.mem_put_of_nodup hv.keys hp
    · refine ⟨[], v.trace, rfl, ⟨by simp, ⟨book, known⟩, stored, by simp, fun _ item _ => ?_⟩, ?_⟩
      · change item.Held watch.status watch.armedAt v.clock
        exact armedAt ▸ Item.held_empty
      · intro followed item hitem
        have htold : statusIn v.trace watch.item = some watch.status := followed.status
        rw [hv.recorded.told] at htold
        change v.items.get? watch.item = some item at hitem
        simpa [hitem] using htold
    · refine (hv.waits p hold).later hv.recorded hrecorded hs rfl [.armed watch] rfl ?_
      refine ⟨fun other hother => ?_, by simp, by simp [moves, Notice.moved?]⟩
      obtain rfl : other = watch := by simpa using hother
      exact fun heq => hne ((hv.keyed p hold).trans heq.symm)
  · exact hv.later_due hs timely [.armed watch] rfl (by simp [Ticking]) h
  · obtain ⟨newer', hsplit'⟩ := promoted_of_append [.armed watch] (by simp) hsplit
    exact hv.later_promoted hs timely hsplit'

/-- Due watches are taken as they waited. -/
theorem collect (hv : v.Continuous) (hs : Step terms v (v.collect v.clock))
    (timely : terms.timely) (idle : v.taken = []) : (v.collect v.clock).Continuous := by
  have hrecorded := hv.recorded.step hs timely
  have hsub : (v.collect v.clock).watches.Sublist v.watches := List.filter_sublist
  refine ⟨hrecorded, hv.wired, hv.keys.sublist (hsub.map _),
    fun p hp => hv.keyed p (hsub.subset hp), fun p hp => ?_, fun watch now h => ?_,
    fun newer older watch now hsplit => ?_⟩
  · exact (hv.waits p (hsub.subset hp)).later hv.recorded hrecorded hs rfl
      [.collected (v.watches.due v.clock) v.clock] rfl
      ⟨by simp, by simp, by simp [moves, Notice.moved?]⟩
  · obtain h | h := List.mem_append.1 h
    · obtain ⟨due, hdue, heq⟩ := List.mem_map.1 h
      cases heq
      have hmem := List.mem_of_mem_filter (mem_sortBy.1 hdue)
      obtain ⟨p, hp, rfl⟩ := List.mem_map.1 hmem
      obtain ⟨since, rest, hrest, watched, -⟩ := hv.waits p hp
      refine ⟨[], v.watches.due v.clock, since, rest, ?_, by simp [Ticking], hdue,
        Int.le_refl _, watched.past hv.recorded hs (Int.le_refl _)⟩
      exact congrArg (Notice.collected _ _ :: ·) hrest
    · simp [idle] at h
  · obtain ⟨newer', hsplit'⟩ := promoted_of_append [_] (by simp) hsplit
    exact hv.later_promoted hs timely hsplit'

/-- A due watch was taken before it is promoted. -/
theorem promote (hv : v.Continuous) {watch : Watch} {now : Instant} {rest : List Taken}
    {rule : Rule}
    (hs : Step terms v { v.log (.promoted watch now) with taken := rest }) (timely : terms.timely)
    (taken : v.taken = .due watch now :: rest)
    (ruled : Run.ruleOf? v.automation watch = some rule) :
    { v.log (.promoted watch now) with taken := rest }.Continuous := by
  have hrecorded := hv.recorded.step hs timely
  refine ⟨hrecorded, hv.wired, hv.keys, hv.keyed, fun p hp => ?_, fun other time h => ?_,
    fun newer older other time hsplit => ?_⟩
  · exact (hv.waits p hp).later hv.recorded hrecorded hs rfl [.promoted watch now] rfl
      ⟨by simp, by simp, by simp [moves, Notice.moved?]⟩
  · exact hv.later_due hs timely [.promoted watch now] rfl (by simp [Ticking])
      (taken ▸ List.mem_cons_of_mem _ h)
  · cases newer with
    | nil =>
      obtain ⟨hpromoted, rfl⟩ := List.cons.inj hsplit
      cases hpromoted
      have hdue := hv.due watch now (taken ▸ List.mem_cons_self)
      exact ⟨hdue.past hv.recorded hs timely, rule, ruled⟩
    | cons notice newer => exact hv.later_promoted hs timely (List.cons.inj hsplit).2

/-- While time passes, items stay where they are. -/
theorem elapse (hv : v.Continuous) {clock : Instant} (hs : Step terms v { v with clock })
    (timely : terms.timely) : { v with clock }.Continuous := by
  refine ⟨hv.recorded.step hs timely, hv.wired, hv.keys, hv.keyed, fun p hp => ?_,
    fun watch now h => hv.later_due hs timely [] rfl (by simp [Ticking]) h,
    fun newer older watch now h => hv.later_promoted hs timely h⟩
  obtain ⟨since, rest, hrest, watched, stays⟩ := hv.waits p hp
  have past := watched.past hv.recorded hs (Int.le_refl _)
  refine ⟨since, rest, hrest,
    ⟨past.latest, past.known, past.stored, past.unbroken, fun followed item hitem => ?_⟩, stays⟩
  exact (past.held followed item hitem).later (hv.recorded.dated _ item hitem)
    (stays followed item hitem)

theorem step (hv : v.Continuous) (hs : Step terms v v') (timely : terms.timely) :
    v'.Continuous := by
  cases hs with
  | amended stored amends =>
    exact hv.still (.amended stored amends) timely rfl [] rfl (.refl _) (.refl _) (by simp)
  | rebound free stored rebinds offered enters =>
    exact hv.still (.rebound free stored rebinds offered enters) timely rfl [] rfl (.refl _)
      (.refl _) (by simp)
  | @created w team id complexity attributes stage actor active placed free graded =>
    exact hv.told (.created active placed free graded) timely rfl rfl rfl rfl rfl rfl
  | @committed w item target move actor stored bound decided =>
    exact hv.told (.committed stored bound decided) timely rfl rfl rfl rfl rfl rfl
  | @heard m genuine =>
    obtain ⟨echoes, hechoes, hecho, -⟩ := v.hear_trace m
    exact hv.still (.heard genuine) timely (by simp) echoes hechoes (v.hear_watches m) (by simp)
      fun notice hnotice => isStill_of_isEcho (hecho notice hnotice)
  | ignored deep =>
    exact hv.still (.ignored deep) timely rfl [_] rfl (.refl _) (.refl _)
      (by simp [Notice.isStill])
  | heeded known => exact hv.heed (.heeded known) timely
  | unknown about unknown => exact hv.unknown (.unknown about unknown) timely about unknown
  | broke taken =>
    exact hv.still (.broke taken) timely rfl [_] rfl (.refl _)
      (taken ▸ List.sublist_cons_self ..) (by simp [Notice.isStill])
  | learned bound free =>
    exact hv.still (.learned bound free) timely rfl [] rfl (.refl _) (.refl _) (by simp)
  | armed known genuine =>
    exact hv.arm (.armed known genuine) timely known (genuine timely).1 (genuine timely).2
  | collected now idle =>
    obtain rfl := now timely
    exact hv.collect (.collected now idle) timely idle
  | promoted taken stored stays ruled =>
    exact hv.promote (.promoted taken stored stays ruled) timely taken ruled
  | abandoned taken =>
    exact hv.still (.abandoned taken) timely rfl [] rfl (.refl _)
      (taken ▸ List.sublist_cons_self ..) (by simp)
  | disarmed item rule =>
    refine hv.still (.disarmed item rule) timely rfl _ rfl List.filter_sublist (.refl _) ?_
    simp [Notice.isStill]
  | published next compiled =>
    exact hv.still (.published next compiled) timely rfl [] rfl (.refl _) (.refl _) (by simp)
  | elapsed later => exact hv.elapse (.elapsed later) timely

end View.Continuous

/-! ## Sessions -/

/-- A promoted watch was armed, and taken out of the table by the tick that promoted it. From its
last arming up to that tick, no signal about it was handled whose type its rule names; and its item
was in its status all the time, if automation could follow it. -/
theorem promoted_continuous {s : System} (new : s.New) (wired : s.isWired) {ops : List Operation}
    (timely : ∀ op ∈ ops, op.isTimely) {newer older : List Notice} {watch : Watch} {now : Instant}
    (promoted : (s.through ops).trace = newer ++ .promoted watch now :: older) :
    ∃ inTick watches since rest rule item,
      older = inTick ++ .collected watches now :: (since ++ .armed watch :: rest) ∧
      Ticking inTick ∧ watch ∈ watches ∧
      (∀ other, .armed other ∈ since → other.key ≠ watch.key) ∧
      Run.ruleOf? (s.through ops).automation watch = some rule ∧
      (∀ signal, .handled (.signal signal) ∈ since → signal.concerns watch →
        signal.type ∉ rule.breakOn) ∧
      (s.through ops).items.get? watch.item = some item ∧
      (watch.Followed since rest → item.Held watch.status watch.armedAt now) := by
  have hstart : (s.view []).Continuous := by
    refine ⟨⟨new.sound.items, fun id item h => ?_, fun id => ?_⟩, wired, ?_, fun p h => ?_,
      fun p h => ?_, fun _ _ h => (by cases h), fun newer older watch now h => ?_⟩
    · simp [System.view, new.items] at h
    · simp [System.view, new.items, new.trace, statusIn, moves]
    · simp [System.view, new.watches, Table.keys]
    · simp [System.view, new.watches] at h
    · simp [System.view, new.watches] at h
    · simp [System.view, new.trace] at h
  have hend : ((s.through ops).view []).Continuous :=
    invariant_through ⟨True, fun _ => False⟩ (fun _ _ hv hs => hv.step hs trivial) new.sound hstart
      fun op hop => ⟨fun _ => timely op hop, fun _ _ => not_false⟩
  obtain ⟨⟨inTick, watches, since, rest, holder, ticking, hmem, -, watched⟩, rule, hrule⟩ :=
    hend.promoted newer older watch now promoted
  obtain ⟨item, hitem⟩ := Option.isSome_iff_exists.1 watched.stored
  refine ⟨inTick, watches, since, rest, rule, item, holder, ticking, hmem, watched.latest, hrule,
    fun signal hsignal hconcerns hbreak => ?_, hitem,
    fun followed => watched.held followed item hitem⟩
  have hunbroken := watched.unbroken signal hsignal
  simp [View.breaks, hconcerns, hrule, hbreak] at hunbroken

/-- A watch is armed, its item moves in place, and moves on when the watch is promoted. -/
def waitedFor : List Operation :=
  sampleSession [.obj [("id", .str "slow"), ("trigger", .str "ping"), ("duration", .str "1h"),
      ("break_on", .arr [.str "stop"]),
      ("actions", .arr [.obj [("type", .str "auto_transition"), ("to", .str "B")]])]] ++
    [.create { team := "t", id := some "i" }, .ingest { type := "ping", item := some "i" },
      .advance (.int 1000), .move "i" (.str "A") {}, .advance (.int 4000), .tick none]

/-- Whether each watch was armed in the status in which automation knew its item. -/
def armedInPlace (trace : List Notice) : Bool :=
  trace.tails.all fun
    | .armed watch :: rest => statusIn rest watch.item = some watch.status
    | _ => true

/-- Automation could follow the item up to the promotion, so it was held in the status of the watch.
-/
theorem promoted_continuous_waitedFor :
    ∃ watch now since rest item, .promoted watch now ∈ (System.through {} waitedFor).trace ∧
      since ++ .armed watch :: rest <:+ (System.through {} waitedFor).trace ∧
      (System.through {} waitedFor).items.get? watch.item = some item ∧
      item.history.map (·.status) = ["A", "A", "B"] ∧
      watch.Followed since rest ∧ item.Held watch.status watch.armedAt now := by
  have hpromotions : (System.through {} waitedFor).trace.any
      (·.promoted?.any (·.item = "i")) := by decide +kernel
  have hstatuses : ((System.through {} waitedFor).items.get? "i").map
      (fun item => item.history.map (·.status)) = some ["A", "A", "B"] := by decide +kernel
  have hplace : armedInPlace (System.through {} waitedFor).trace := by decide +kernel
  have hdropped : (System.through {} waitedFor).trace.all fun
      | .dropped .. => false
      | _ => true := by decide +kernel
  obtain ⟨notice, hmem, hpromoted⟩ := List.any_eq_true.1 hpromotions
  cases notice with
  | promoted watch now =>
    obtain ⟨newer, older, htrace⟩ := List.append_of_mem hmem
    obtain ⟨inTick, watches, since, rest, _, item, holder, -, -, -, -, -, hitem, hheld⟩ :=
      promoted_continuous (System.new_default {}) (by decide) (by decide) htrace
    generalize System.through {} waitedFor = s at hstatuses hplace hdropped hmem htrace hitem
    have hsuffix : since ++ .armed watch :: rest <:+ s.trace :=
      ⟨newer ++ .promoted watch now :: (inTick ++ [.collected watches now]),
        by simp [htrace, holder]⟩
    have harmed : .armed watch :: rest ∈ s.trace.tails :=
      (List.mem_tails _ _).2 ((List.suffix_append _ _).trans hsuffix)
    have followed : watch.Followed since rest := by
      refine ⟨of_decide_eq_true (List.all_eq_true.1 hplace _ harmed), fun m limit hmem' => ?_⟩
      have := List.all_eq_true.1 hdropped _ (hsuffix.subset (List.mem_append_left _ hmem'))
      cases this
    have hid : watch.item = "i" := of_decide_eq_true hpromoted
    rw [← hid, hitem, Option.map_some, Option.some.injEq] at hstatuses
    exact ⟨watch, now, since, rest, item, hmem, hsuffix, hitem, hstatuses, followed,
      hheld followed⟩
  | _ => cases hpromoted

/-! ### Where continuity ends -/

/-- Whether an item was out of the status of a watch between its arming and its promotion. -/
def System.strayed (s : System) : Bool :=
  s.trace.any fun
    | .promoted watch now => (s.items.get? watch.item).any fun item =>
      item.history.any fun stay => stay.overlaps watch.armedAt now && stay.status ≠ watch.status
    | _ => false

/-- Whether an event is about a watch. -/
def Event.concerns (event : Event) (watch : Watch) : Bool :=
  match event with
  | .moved m => m.item = watch.item
  | .signal s => s.concerns watch

/-- Whether an event that the rule of a watch names was handled behind the last arming in a trace.
-/
def Automation.slighted (a : Automation) (watch : Watch) (trace : List Notice) : Bool :=
  (trace.takeWhile fun notice => notice.armed?.all (·.key ≠ watch.key)).any fun
    | .handled event => event.concerns watch &&
      (Run.ruleOf? a watch).any fun rule => rule.breakOn.contains event.type
    | _ => false

/-- Whether a watch was promoted although an event that its rule names was handled since its arming.
-/
def System.slighted (s : System) : Bool :=
  s.trace.tails.any fun
    | .promoted watch _ :: older => s.automation.slighted watch older
    | _ => false

/-- An action that moves the item. -/
def autoMove (status : String) : Json :=
  .arr [.obj [("type", .str "auto_transition"), ("to", .str status)]]

/-- Automation is not told that an item leaves the status of a watch: that move is too deep. -/
def outrun : List Operation :=
  sampleSession [
    .obj [("id", .str "on"), ("to", .str "B"), ("actions", autoMove "C")],
    .obj [("id", .str "off"), ("from", .arr [.str "B"]), ("to", .str "C"),
      ("actions", autoMove "D")],
    .obj [("id", .str "hold"), ("from", .arr [.str "B"]), ("to", .str "C"),
      ("duration", .str "1h")]] ++
    [.create { team := "t", id := some "i" }, .move "i" (.str "B") {}, .advance (.int 1000),
      .move "i" (.str "C") {}, .advance (.int 4000), .tick none]

/-- A signal breaks one watch, whose rule moves the item on, and arms another one in the status that
was left. -/
def belated : List Operation :=
  sampleSession [
    .obj [("id", .str "guard"), ("trigger", .str "ping"), ("duration", .str "1h"),
      ("break_on", .arr [.str "stop"]), ("on_break", autoMove "B")],
    .obj [("id", .str "late"), ("trigger", .str "stop"), ("duration", .str "1h")]] ++
    [.create { team := "t", id := some "i" }, .ingest { type := "ping", item := some "i" },
      .ingest { type := "stop", item := some "i" }, .advance (.int 1000), .move "i" (.str "A") {},
      .advance (.int 4000), .tick none]

/-- The first of two watches that a tick has taken causes an alert that would break the second. -/
def overtaken : List Operation :=
  sampleSession [
    .obj [("id", .str "first"), ("trigger", .str "ping"), ("duration", .str "1h"),
      ("actions", autoMove "A")],
    .obj [("id", .str "second"), ("trigger", .str "ping"), ("duration", .str "2h"),
      ("break_on", .arr [.str "metric_alert"])]]
    [.obj [("id", .str "slow"), ("metric", .str "stage_duration"), ("stage", .str "work"),
      ("threshold", .int 1)]] ++
    [.create { team := "t", id := some "i" }, .ingest { type := "ping", item := some "i" },
      .advance (.int 9000), .tick none]

/-- A rule names transitions, which never break a watch, and the item is moved in place. -/
def unmoved : List Operation :=
  sampleSession [
    .obj [("id", .str "still"), ("trigger", .str "ping"), ("duration", .str "1h"),
      ("break_on", .arr [.str "transition"])]] ++
    [.create { team := "t", id := some "i" }, .ingest { type := "ping", item := some "i" },
      .move "i" (.str "A") {}, .advance (.int 4000), .tick none]

/-- An item can leave the status of a watch that is promoted, and events can go unheeded that its
rule names. -/
theorem promoted_discontinuous :
    (∀ ops ∈ [outrun, belated, overtaken, unmoved], ∀ op ∈ ops, op.isTimely) ∧
    (System.through { settings := { maxCascadeDepth := 1 } } outrun).strayed ∧
    (System.through {} belated).strayed ∧
    (System.through {} overtaken).slighted ∧
    (System.through {} unmoved).slighted :=
  ⟨by decide +kernel, by decide +kernel, by decide +kernel, by decide +kernel, by decide +kernel⟩

end Stageflow
