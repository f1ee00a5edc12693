import Mathlib.Data.List.Destutter
import Stageflow.Item.Change
import Stageflow.Metrics.Track

/-!
# Visits to stages

The visits of a history: stays in one stage, one after another, are one visit. A track follows a
history if it has these visits and counts the moves between the stays. It does so from the creation
of an item on, if it takes in the item's moves in the order in which they are made.
-/

namespace Stageflow

/-! ## The visits of a history -/

/-- Puts a stay before some visits: it begins the first one, or is one of its own. -/
def Stay.join (stay : Stay) : List Visit → List Visit
  | [] => [⟨stay.stage, stay.enteredAt, stay.exitedAt⟩]
  | visit :: later =>
    if stay.stage = visit.stage then { visit with enteredAt := stay.enteredAt } :: later
    else ⟨stay.stage, stay.enteredAt, stay.exitedAt⟩ :: visit :: later

/-- The visits to stages of a history. -/
def visits (history : List Stay) : List Visit := history.foldr Stay.join []

@[simp] theorem visits_cons (stay : Stay) (rest : List Stay) :
    visits (stay :: rest) = stay.join (visits rest) := rfl

/-- A history with a first stay has a first visit, which begins with it. -/
theorem exists_visits_cons (stay : Stay) (rest : List Stay) :
    ∃ visit later, visits (stay :: rest) = visit :: later ∧ visit.stage = stay.stage := by
  rw [visits_cons]
  cases visits rest with
  | nil => exact ⟨_, [], rfl, rfl⟩
  | cons visit later =>
    by_cases hsame : stay.stage = visit.stage
    · exact ⟨_, later, if_pos hsame, hsame.symm⟩
    · exact ⟨_, visit :: later, if_neg hsame, rfl⟩

theorem visits_ne_nil {history : List Stay} (h : history ≠ []) : visits history ≠ [] := by
  obtain ⟨stay, rest, rfl⟩ := List.exists_cons_of_ne_nil h
  obtain ⟨visit, later, hvisits, -⟩ := exists_visits_cons stay rest
  simp [hvisits]

/-- The stages of the visits are those of the stays, each once where it is repeated in a row. -/
theorem map_stage_visits (history : List Stay) :
    (visits history).map (·.stage) = (history.map (·.stage)).destutter (· ≠ ·) := by
  cases history with
  | nil => rfl
  | cons stay rest =>
    change _ = List.destutter' (· ≠ ·) stay.stage (rest.map (·.stage))
    induction rest generalizing stay with
    | nil => rfl
    | cons next rest ih =>
      have hnext := ih next
      obtain ⟨visit, later, hvisits, hstage⟩ := exists_visits_cons next rest
      rw [hvisits] at hnext
      rw [visits_cons, hvisits, List.map_cons]
      by_cases hsame : stay.stage = next.stage
      · rw [List.destutter'_cons_neg _ (by simpa using hsame), hsame, ← hnext]
        simp [Stay.join, hsame, hstage]
      · rw [List.destutter'_cons_pos _ hsame, ← hnext]
        simp [Stay.join, hsame, hstage]

/-! ## Moves -/

theorem closeLast_ne_nil (now : Instant) {later : List Visit} (h : later ≠ []) :
    Track.closeLast now later ≠ [] := by
  fun_cases Track.closeLast <;> simp_all

/-- A stay is put before the visits whatever comes behind them. -/
theorem join_append (stay : Stay) {later : List Visit} (h : later ≠ []) (behind : List Visit) :
    stay.join (later ++ behind) = stay.join later ++ behind := by
  cases later with
  | nil => exact absurd rfl h
  | cons visit later => grind [Stay.join]

theorem join_closeLast (stay : Stay) (now : Instant) {later : List Visit} (h : later ≠ []) :
    stay.join (Track.closeLast now later) = Track.closeLast now (stay.join later) := by
  match later, h with
  | [visit], _ => grind [Stay.join, Track.closeLast]
  | visit :: next :: later, _ => grind [Stay.join, Track.closeLast]

variable {last : Stay} {status stage : String} {now : Instant}

/-- A move within a stage goes on with its visit. -/
theorem visits_move_within (earlier : List Stay) (hopen : last.exitedAt = none)
    (h : last.stage = stage) :
    visits (earlier ++ [last.close now, ⟨status, stage, now, none⟩]) =
      visits (earlier ++ [last]) := by
  induction earlier with
  | nil => simp [visits, Stay.join, Stay.close, h, hopen]
  | cons stay rest ih => exact congrArg stay.join ih

/-- A move between stages ends a visit and begins one. -/
theorem visits_move_between (earlier : List Stay) (hopen : last.exitedAt = none)
    (h : last.stage ≠ stage) :
    visits (earlier ++ [last.close now, ⟨status, stage, now, none⟩]) =
      Track.closeLast now (visits (earlier ++ [last])) ++ [⟨stage, now, none⟩] := by
  induction earlier with
  | nil => simp [visits, Stay.join, Stay.close, Track.closeLast, h, hopen]
  | cons stay rest ih =>
    have hrest : visits (rest ++ [last]) ≠ [] := visits_ne_nil (by simp)
    simp only [List.cons_append, visits_cons]
    rw [ih, join_append _ (closeLast_ne_nil now hrest), join_closeLast _ _ hrest]

/-- The last visit is where the last stay is, and is open if that one is. -/
theorem getLast?_visits (earlier : List Stay) (last : Stay) :
    (visits (earlier ++ [last])).getLast?.map (fun visit => (visit.stage, visit.exitedAt)) =
      some (last.stage, last.exitedAt) := by
  induction earlier with
  | nil => rfl
  | cons stay rest ih =>
    have hrest : rest ++ [last] ≠ [] := by simp
    obtain ⟨visit, later, hvisits⟩ := List.exists_cons_of_ne_nil (visits_ne_nil hrest)
    grind [visits_cons, Stay.join]

/-! ## Tracks -/

/-- Whether a track has the visits of a history and counts its moves. -/
structure Track.Follows (track : Track) (history : List Stay) : Prop where
  visits : track.visits = Stageflow.visits history
  transitions : track.transitions + 1 = history.length

/-- The track that starts with the creation of an item follows its history. -/
theorem Track.follows_start (m : Moved) (status : String) :
    (Track.start m).Follows [⟨status, m.targetStage, m.time, none⟩] := ⟨rfl, rfl⟩

/-- A track that takes in a move of its item goes on following its history. -/
theorem Track.Follows.move {track : Track} {item : Item} {earlier : List Stay} {m : Moved}
    (h : track.Follows item.history) (hhistory : item.history = earlier ++ [last])
    (hopen : last.exitedAt = none) (hsource : m.sourceStage = some last.stage)
    (terminal : Bool) :
    (track.move m terminal).Follows (item.moveTo m.target m.targetStage m.time).history := by
  have hmoved := Item.history_moveTo hhistory hopen m.target m.targetStage m.time
  obtain ⟨hvisits, htransitions⟩ := h
  rw [hhistory] at hvisits htransitions
  refine ⟨?_, ?_⟩
  · rw [hmoved]
    by_cases hsame : last.stage = m.targetStage
    · rw [visits_move_within earlier hopen hsame]
      simp [Track.move, Track.enterStage, hsource, hsame, hvisits]
    · rw [visits_move_between earlier hopen hsame]
      simp [Track.move, Track.enterStage, hsource, hsame, hvisits]
  · have hcount : (track.move m terminal).transitions = track.transitions + 1 := by
      unfold Track.move Track.enterStage
      split <;> rfl
    simp only [hmoved, hcount, List.length_append, List.length_cons, List.length_nil]
      at htransitions ⊢
    omega

/-- The open visit of a track that follows a history is where the open stay is. -/
theorem Track.Follows.currentVisit? {track : Track} {item : Item} {earlier : List Stay}
    (h : track.Follows item.history) (hhistory : item.history = earlier ++ [last])
    (hopen : last.exitedAt = none) : track.currentVisit?.map (·.stage) = some last.stage := by
  have hlast := getLast?_visits earlier last
  rw [← hhistory, ← h.visits] at hlast
  grind [Track.currentVisit?]

end Stageflow
