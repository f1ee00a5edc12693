import Stageflow.Proofs.Histories
import Stageflow.Proofs.Regimes.Session

/-!
# Depth and nesting

A journal tells how automation is nested: which actions are in progress, one inside the other, being
those that began and are not over yet, and whether a watch is being promoted. What is asked for and
announced then has the depth of the number of these actions, on top of a base. The base is zero, the
depth of all requests and signals from outside, unless a watch is being promoted: the watch keeps
the event that it was armed for, and its promotion responds to that event, at the depth that it had.
-/

namespace Stageflow

/-! ## Actions in progress -/

/-- How automation is nested: the number of actions in progress, one inside the other, and the watch
that is being promoted. -/
structure Nest where
  actions : Nat := 0
  promoted : Option Watch := none

/-- The depth of what the outermost action responds to. -/
def Nest.base (nest : Nest) : Int := nest.promoted.elim 0 (·.trigger.depth)

/-- The depth of what is asked for and announced. -/
def Nest.depth (nest : Nest) : Int := nest.actions + nest.base

/-- How automation is nested after a notice. -/
def Notice.nest : Notice → Nest → Nest
  | .began .., nest => { nest with actions := nest.actions + 1 }
  | .ended .., nest => { nest with actions := nest.actions - 1 }
  | .promoted watch _, nest => { nest with promoted := some watch }
  | .fired _, nest => { nest with promoted := none }
  | _, nest => nest

/-- How automation is nested, told from a journal. -/
def nestOf (journal : List Notice) : Nest := journal.foldr Notice.nest {}

/-- The depth of what a notice tells of: of a move, of an event that is delivered, taken in or
dropped, or of what an action responds to. -/
def Notice.depth? : Notice → Option Int
  | .created m | .committed _ m => some m.depth
  | .delivered _ event | .handled event | .dropped event _ => some event.depth
  | .began _ _ depth => some depth
  | _ => none

/-- Whether what a notice tells of has the depth that is due to the nesting. -/
structure Notice.Nests (notice : Notice) (older : List Notice) : Prop where
  depth_eq : ∀ depth, notice.depth? = some depth → depth = (nestOf older).depth
  deep : ∀ event limit, notice = .dropped event limit → limit < event.depth

/-! ## The regime of depths -/

/-- A journal with some nesting, in which all has the depth due to the nesting of the time. -/
structure Nested (nest : Nest) (journal : List Notice) : Prop where
  nest_eq : nestOf journal = nest
  upholds : Upholds Notice.Nests journal

/-- In the setting of some nesting, what is asked for and announced has the depth due to it. -/
def nesting : Regime Nest where
  holds nest s := Nested nest s.journal
  hears nest event := event.depth = nest.depth
  level nest depth := depth = nest.depth
  within nest _ := { nest with actions := nest.actions + 1 }
  during nest watch := { nest with promoted := some watch }
  idle nest := nest = {}

namespace Nested

variable {nest after : Nest} {journal : List Notice} {notice : Notice}

/-- A notice changes the nesting, and is due to the nesting before it. -/
theorem cons (h : Nested nest journal) (hnest : notice.nest nest = after)
    (hdepth : ∀ depth, notice.depth? = some depth → depth = nest.depth)
    (hdeep : ∀ event limit, notice = .dropped event limit → limit < event.depth) :
    Nested after (notice :: journal) where
  nest_eq := hnest ▸ congrArg notice.nest h.nest_eq
  upholds := ⟨⟨h.nest_eq ▸ hdepth, hdeep⟩, h.upholds⟩

/-- A notice that tells of no depth. -/
theorem mark (h : Nested nest journal) (hnest : notice.nest nest = after)
    (hnone : notice.depth? = none) : Nested after (notice :: journal) := by
  refine h.cons hnest (fun depth hdepth => ?_) fun event limit heq => ?_
  · rw [hnone] at hdepth
    cases hdepth
  · rw [heq] at hnone
    cases hnone

/-- A notice of what is asked for at the depth that is due. -/
theorem asked (h : Nested nest journal) (hnest : notice.nest nest = after) {depth : Int}
    (level : depth = nest.depth) (hdepth : notice.depth? = some depth)
    (hkept : ∀ event limit, notice ≠ .dropped event limit) : Nested after (notice :: journal) := by
  refine h.cons hnest (fun other hother => ?_) fun event limit heq => absurd heq (hkept event limit)
  rw [hdepth] at hother
  exact Option.some.inj hother ▸ level

theorem told (h : Nested nest journal) {limit : Int} {event : Event}
    (heard : event.depth = nest.depth) (tells : notice.Tells limit event) :
    Nested nest (notice :: journal) := by
  cases tells with
  | delivered | handled => exact h.asked rfl heard rfl (by nofun)
  | dropped deep =>
    refine h.cons rfl (fun depth hdepth => ?_) fun event limit heq => ?_
    · exact Option.some.inj hdepth ▸ heard
    · cases heq
      exact deep

theorem quiet (h : Nested nest journal) (hquiet : notice.isQuiet) :
    Nested nest (notice :: journal) :=
  h.mark (by cases notice <;> first | rfl | cases hquiet)
    (by cases notice <;> first | rfl | cases hquiet)

end Nested

/-- An action begins at the depth that is due, also the first one of a promotion. -/
theorem nesting.depth_of_licensed {nest : Nest} {context : ActionContext}
    (licensed : nesting.Licensed nest context) : context.depth = nest.depth := by
  cases licensed with
  | heard heard depth => exact depth.trans heard
  | promoted idle setting depth =>
    obtain rfl := idle
    rw [setting, depth]
    exact (Int.zero_add _).symm
  | requested _ level => exact level

theorem nesting.lawful : nesting.Lawful where
  beside h hst := by
    unfold nesting at *
    simpa only [hst.journal] using h
  quiet hquiet h := h.quiet hquiet
  saved _ h _ _ := h.mark rfl rfl
  rebound _ idle h _ := ⟨_, idle, h.mark rfl rfl⟩
  created _ _ idle h level _ _ _ := ⟨_, idle, level, h.asked rfl level rfl (by nofun)⟩
  committed _ _ h level _ _ := ⟨level, h.asked rfl level rfl (by nofun)⟩
  learned h _ _ := h
  published h _ _ _ := h
  told h heard tells := h.told heard tells
  armed h _ _ _ _ := h.mark rfl rfl
  served h _ _ _ := h.mark rfl rfl
  broken h _ _ _ := (h.mark rfl rfl).mark rfl rfl
  ruleless h _ _ := h.mark rfl rfl
  promoted _ h _ _ := (h.mark rfl rfl).mark rfl rfl
  fired idle h := by
    -- Nothing is in progress where a promotion starts, so its end leads back to that.
    obtain rfl := idle
    exact h.mark rfl rfl
  began action h licensed := by
    have hdepth := depth_of_licensed licensed
    refine ⟨?_, h.asked rfl hdepth rfl (by nofun)⟩
    rw [hdepth]
    simp only [nesting, Nest.depth, Nest.base]
    omega
  ended h := h.mark rfl rfl
  measured level := level
  alerted level _ := level
  stamped _ level := level
  ground idle := by
    rw [idle]
    rfl

/-! ## Sessions -/

/-- The depth at which an operation asks for something, or tells of it. -/
def Operation.depth : Operation → Int
  | .create request => request.actor.depth
  | .move _ _ actor => actor.depth
  | .ingest signal => signal.depth
  | .deliver event _ | .publish event => event.depth
  | .act context _ => context.depth
  | .checkThresholds _ _ depth => depth
  | _ => 0

theorem Operation.admits_nesting {op : Operation} (flat : op.depth = 0) {nest : Nest}
    (idle : nesting.idle nest) : nesting.Admits nest op := by
  obtain rfl : nest = {} := idle
  cases op <;> first | exact flat | trivial

variable {s : System} {ops : List Operation}

theorem System.New.nested (new : s.New) (unnoted : s.journal = [])
    (flat : ∀ op ∈ ops, op.depth = 0) : ∃ nest, Nested nest (s.through ops).journal := by
  have hstart : nesting.Stands {} s := new.stands ⟨by rw [unnoted]; rfl, by rw [unnoted]; trivial⟩
  obtain ⟨nest, -, hstands⟩ := Regime.stands_through nesting.lawful
    (fun op hop _ idle => op.admits_nesting (flat op hop) idle) rfl hstart
  exact ⟨nest, hstands.holds⟩

/-- Depth counts nesting, from the trigger of the watch that is being promoted: in every session
that asks and signals at depth zero, the depth of a move, of an event that is delivered, taken in or
dropped, and of what an action responds to, is the number of actions in progress, one inside the
other, on top of zero, or while a watch is being promoted on top of the depth of the watch's
trigger. An event is dropped only where that exceeds the limit. -/
theorem depth_counts_nesting (new : s.New) (unnoted : s.journal = [])
    (flat : ∀ op ∈ ops, op.depth = 0) {newer older : List Notice} {notice : Notice}
    (hsplit : (s.through ops).journal = newer ++ notice :: older) :
    let nest := nestOf older
    let base := nest.promoted.elim 0 (·.trigger.depth)
    (∀ depth, notice.depth? = some depth → depth = nest.actions + base) ∧
      ∀ event limit, notice = .dropped event limit → limit < nest.actions + base := by
  intro nest base
  obtain ⟨_, hnested⟩ := new.nested unnoted flat
  obtain ⟨hnests, -⟩ := (hsplit ▸ hnested.upholds).of_split
  refine ⟨hnests.depth_eq, fun event limit heq => ?_⟩
  have hdeep := hnests.deep event limit heq
  rw [hnests.depth_eq event.depth (by rw [heq]; rfl)] at hdeep
  exact hdeep

/-- The depths of the moves in a journal, each with the number of actions that were in progress. -/
def nestings (journal : List Notice) : List (Int × Nat) :=
  tellings (fun notice older => notice.moved?.map fun m => (m.depth, (nestOf older).actions))
    journal

theorem split_of_nestings {journal : List Notice} {depth : Int} {n : Nat}
    (h : (depth, n) ∈ nestings journal) : ∃ newer notice older,
      journal = newer ++ notice :: older ∧ notice.depth? = some depth ∧
        (nestOf older).actions = n := by
  obtain ⟨newer, notice, older, hsplit, htell⟩ := split_of_tellings h
  obtain ⟨m, hm, heq⟩ := Option.map_eq_some_iff.1 htell
  obtain ⟨rfl, rfl⟩ := Prod.mk.inj heq
  refine ⟨newer, notice, older, hsplit, ?_, rfl⟩
  cases notice <;> cases hm <;> rfl

/-- Two rules move an item on, the second within the first. -/
def movedTwice : List Operation :=
  sampleSession [onwardRule "B" "C", onwardRule "C" "D"] ++
    [.create { team := "t", id := some "i" }, .move "i" (.str "B") {}]

theorem depth_counts_nesting_movedTwice :
    let journal := (System.through {} movedTwice).journal
    nestings journal = [(2, 2), (1, 1), (0, 0), (0, 0)] ∧
      ∃ newer notice older, journal = newer ++ notice :: older ∧ notice.depth? = some 2 ∧
        (nestOf older).actions = 2 ∧ (nestOf older).base = 0 := by
  intro journal
  have hnestings : nestings journal = [(2, 2), (1, 1), (0, 0), (0, 0)] := by decide +kernel
  have hmem : (2, 2) ∈ nestings journal := hnestings ▸ List.mem_cons_self
  obtain ⟨newer, notice, older, hsplit, hdepth, hlength⟩ := split_of_nestings hmem
  refine ⟨hnestings, newer, notice, older, hsplit, hdepth, hlength, ?_⟩
  have hcounts := (depth_counts_nesting (System.new_default {}) rfl
    (fun op hop => by revert op; decide +kernel) hsplit).1 2 hdepth
  unfold Nest.base
  omega

/-- A chain of promotions, each in its own tick. -/
def chained : List Operation :=
  sampleSession [waitingRule "B" "C", waitingRule "C" "D", waitingRule "D" "A"] ++
    [.create { team := "t", id := some "i" }, .move "i" (.str "B") {}, .advance (.int 4000),
      .tick none, .advance (.int 4000), .tick none, .advance (.int 4000), .tick none]

/-- The second promotion asks one level deeper than the first one, with one action in progress. As
that exceeds the limit, automation takes no notice of where it leads, and there is no third one. -/
theorem chained_deepens :
    let t := System.through { settings := { maxCascadeDepth := 1 } } chained
    (∀ op ∈ chained, op.depth = 0) ∧
      nestings t.journal = [(2, 1), (1, 1), (0, 0), (0, 0)] ∧
      (∃ newer notice older, t.journal = newer ++ notice :: older ∧ notice.depth? = some 2 ∧
        (nestOf older).actions = 1) ∧
      (t.items.get? "i").map (·.status) = some "D" ∧
      t.journal.findSome? (Notice.line? fun _ => "") =
        some ("WARNING idlc.automation: Dropping transition event for item i: " ++
          "automation cascade depth 2 exceeds 1") := by
  intro t
  have hnestings : nestings t.journal = [(2, 1), (1, 1), (0, 0), (0, 0)] := by decide +kernel
  refine ⟨by decide +kernel, hnestings, ?_, by decide +kernel, by decide +kernel⟩
  exact split_of_nestings (hnestings ▸ List.mem_cons_self)

end Stageflow
