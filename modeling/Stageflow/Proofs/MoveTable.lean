import Mathlib.Data.List.Sort
import Stageflow.Proofs.Tables
import Stageflow.Workflow.Edges

/-!
# The expanded table of moves

What expanding declarations of moves comes to: the table has one entry for each status, and a status
leads to another one exactly if some declaration covers the one and names the other. The
destinations stand by code point, so that the table is determined by its moves; it depends neither
on the order of the declarations nor on how targets are shared among them.

## Main statements

* `Edges.keys_ofTransitions` — the statuses of the table.
* `Edges.mem_destinations_ofTransitions` — the moves of the table.
* `Edges.ofTransitions_congr` — declarations of the same moves expand to the same table.
* `Edges.ofTransitions_exact` — the statuses and moves of the table, whatever the order of the
  declarations and however they are split.
-/

namespace Stageflow

theorem Text.mem_sortedSet {text : String} {texts : List String} :
    text ∈ sortedSet texts ↔ text ∈ texts := by
  rw [sortedSet, sorted, mem_sortBy, List.mem_eraseDups]

/-- A set of texts stands by code point, each text once. -/
theorem Text.pairwise_sortedSet (texts : List String) : (sortedSet texts).Pairwise (· < ·) := by
  have hordered : (sortedSet texts).Pairwise (· ≤ ·) := by
    refine (pairwise_sortBy (fun a b => ?_) (fun a b c hab hbc => ?_) _).imp of_decide_eq_true
    · simpa using String.le_total a b
    · rw [decide_eq_true_eq] at hab hbc ⊢
      exact String.le_trans hab hbc
  have hnodup : (sortedSet texts).Nodup := (sortBy_perm ..).nodup_iff.2 (nodup_eraseDups texts)
  refine hordered.imp₂ (fun a b hle hne => ?_) hnodup
  exact String.not_le.1 fun hge => hne (String.le_antisymm hle hge)

namespace Edges

variable {edges : Edges} {known : List String} {t : Transition} {source target : String}

/-! ## One declaration -/

/-- A declaration leaves the statuses of the table as they are. -/
theorem keys_add : (edges.add known t).keys = edges.keys := by
  simp only [add, Table.keys, List.map_map]
  refine List.map_congr_left fun p _ => ?_
  by_cases h : t.leadsFrom p.1 <;> simp [h]

theorem get?_add (edges : Edges) (known : List String) (t : Transition) (source : String) :
    (edges.add known t).get? source = (edges.get? source).map fun targets =>
      if t.leadsFrom source then Text.sortedSet (targets ++ t.targets.filter known.contains)
      else targets := by
  induction edges with
  | nil => rfl
  | cons p rest ih =>
    have hrest : Table.get? source (List.map _ rest) = _ := ih
    by_cases hp : p.1 = source
    · by_cases hleads : t.leadsFrom source <;> simp [add, Table.get?, hp, hleads]
    · by_cases hleads : t.leadsFrom p.1 <;> simp [add, Table.get?, hp, hleads, hrest]

/-- What a declaration adds to a status of the table. -/
theorem mem_destinations_add (hsource : source ∈ edges.keys) :
    target ∈ (edges.add known t).destinations source ↔
      target ∈ edges.destinations source ∨
        t.leadsFrom source ∧ target ∈ t.targets ∧ target ∈ known := by
  obtain ⟨targets, htargets⟩ := Table.exists_get? hsource
  simp only [destinations, get?_add, htargets, Option.map_some, Option.getD_some]
  by_cases hleads : t.leadsFrom source <;> simp [hleads, Text.mem_sortedSet]

/-! ## All declarations -/

theorem keys_foldl_add (transitions : List Transition) :
    (transitions.foldl (add known) edges).keys = edges.keys := by
  induction transitions generalizing edges with
  | nil => rfl
  | cons t rest ih => rw [List.foldl_cons, ih, keys_add]

theorem mem_destinations_foldl_add (transitions : List Transition) (hsource : source ∈ edges.keys) :
    target ∈ (transitions.foldl (add known) edges).destinations source ↔
      target ∈ edges.destinations source ∨
        ∃ t ∈ transitions, t.leadsFrom source ∧ target ∈ t.targets ∧ target ∈ known := by
  induction transitions generalizing edges with
  | nil => simp
  | cons t rest ih =>
    have hkey : source ∈ (edges.add known t).keys := by rwa [keys_add]
    rw [List.foldl_cons, ih hkey, mem_destinations_add hsource]
    simp only [List.mem_cons, or_and_right, exists_or, exists_eq_left, or_assoc]

theorem destinations_of_not_mem (h : source ∉ edges.keys) : edges.destinations source = [] := by
  have hnone : edges.get? source = none := by
    cases hget : edges.get? source with
    | none => rfl
    | some targets => exact absurd (List.mem_map_of_mem (Table.mem_of_get? hget)) h
  rw [destinations, hnone, Option.getD_none]

/-- A table without moves. -/
theorem destinations_of_empty (statuses : List String) (source : String) :
    destinations (statuses.map fun s => (s, [])) source = [] := by
  induction statuses with
  | nil => rfl
  | cons s rest ih =>
    by_cases hs : s = source
    · simp [destinations, Table.get?, hs]
    · simpa [destinations, Table.get?, hs] using ih

variable {transitions others : List Transition} {statuses : List String}

/-- The table has one entry for each status. -/
theorem keys_ofTransitions : (ofTransitions transitions statuses).keys = statuses.eraseDups := by
  rw [ofTransitions, keys_foldl_add, Table.keys, List.map_map]
  exact List.map_id _

/-- The table leads from one status to another exactly where a declaration does. -/
theorem mem_destinations_ofTransitions :
    target ∈ (ofTransitions transitions statuses).destinations source ↔
      source ∈ statuses ∧ target ∈ statuses ∧
        ∃ t ∈ transitions, t.leadsFrom source ∧ target ∈ t.targets := by
  by_cases hsource : source ∈ statuses
  · have hkey : source ∈ Table.keys (statuses.eraseDups.map fun s => (s, ([] : List String))) := by
      simpa [Table.keys] using hsource
    rw [ofTransitions, mem_destinations_foldl_add transitions hkey, destinations_of_empty]
    grind
  · have hkey : source ∉ (ofTransitions transitions statuses).keys := by
      simpa [keys_ofTransitions] using hsource
    simp [destinations_of_not_mem hkey, hsource]

/-! ## What a table depends on -/

theorem pairwise_destinations_foldl_add (transitions : List Transition)
    (h : (edges.destinations source).Pairwise (· < ·)) :
    ((transitions.foldl (add known) edges).destinations source).Pairwise (· < ·) := by
  induction transitions generalizing edges with
  | nil => exact h
  | cons t rest ih =>
    refine ih ?_
    unfold destinations at h ⊢
    rw [get?_add]
    cases hget : edges.get? source with
    | none => exact .nil
    | some targets =>
      rw [hget] at h
      by_cases hleads : t.leadsFrom source
      · simpa [hleads] using Text.pairwise_sortedSet _
      · simpa [hleads] using h

/-- The destinations of a status stand by code point, each once. -/
theorem pairwise_destinations_ofTransitions :
    ((ofTransitions transitions statuses).destinations source).Pairwise (· < ·) := by
  refine pairwise_destinations_foldl_add transitions ?_
  rw [destinations_of_empty]
  exact .nil

/-- Declarations that make the same moves expand to the same table. -/
theorem ofTransitions_congr
    (h : ∀ source target, (∃ t ∈ transitions, t.leadsFrom source ∧ target ∈ t.targets) ↔
      ∃ t ∈ others, t.leadsFrom source ∧ target ∈ t.targets) :
    ofTransitions transitions statuses = ofTransitions others statuses := by
  have hkeys : (ofTransitions transitions statuses).keys =
      (ofTransitions others statuses).keys := by
    rw [keys_ofTransitions, keys_ofTransitions]
  have hsame (source : String) : (ofTransitions transitions statuses).destinations source =
      (ofTransitions others statuses).destinations source := by
    refine pairwise_destinations_ofTransitions.eq_of_mem_iff pairwise_destinations_ofTransitions
      fun target => ?_
    rw [mem_destinations_ofTransitions, mem_destinations_ofTransitions, h]
  have hnodup : (ofTransitions transitions statuses).keys.Nodup :=
    keys_ofTransitions ▸ nodup_eraseDups statuses
  refine Table.ext_get? hnodup hkeys fun source hsource => ?_
  obtain ⟨targets, htargets⟩ := Table.exists_get? hsource
  obtain ⟨targets', htargets'⟩ := Table.exists_get? (hkeys ▸ hsource)
  rw [htargets, htargets', Option.some_inj]
  simpa [destinations, htargets, htargets'] using hsame source

end Edges

/-- A declaration is split into pieces if they have its source and its exceptions, and share its
targets. -/
structure Transition.IsSplit (pieces : List Transition) (t : Transition) : Prop where
  source : ∀ piece ∈ pieces, piece.source = t.source
  exceptions : ∀ piece ∈ pieces, ∀ status, status ∈ piece.exceptions ↔ status ∈ t.exceptions
  targets : ∀ target, target ∈ t.targets ↔ ∃ piece ∈ pieces, target ∈ piece.targets

namespace Transition

variable {t : Transition} {pieces : List Transition}

theorem leadsFrom_iff {status : String} : t.leadsFrom status ↔
    t.source = status ∧ t.source ≠ wildcard ∨ t.source = wildcard ∧ status ∉ t.exceptions := by
  by_cases h : t.source = wildcard <;> simp [leadsFrom, isWildcard, h]

theorem IsSplit.leadsFrom (h : IsSplit pieces t) {piece : Transition} (hpiece : piece ∈ pieces)
    {status : String} : piece.leadsFrom status ↔ t.leadsFrom status := by
  rw [leadsFrom_iff, leadsFrom_iff, h.source piece hpiece, h.exceptions piece hpiece]

/-- The pieces of a declaration make its moves. -/
theorem IsSplit.moves (h : IsSplit pieces t) {source target : String} :
    (∃ piece ∈ pieces, piece.leadsFrom source ∧ target ∈ piece.targets) ↔
      t.leadsFrom source ∧ target ∈ t.targets := by
  rw [h.targets]
  constructor
  · rintro ⟨piece, hpiece, hleads, htarget⟩
    exact ⟨(h.leadsFrom hpiece).1 hleads, piece, hpiece, htarget⟩
  · rintro ⟨hleads, piece, hpiece, htarget⟩
    exact ⟨piece, hpiece, (h.leadsFrom hpiece).2 hleads, htarget⟩

end Transition

namespace Edges

/-- The expansion of declarations is exact. The statuses are the keys of the table, each once; one
leads to another exactly if a declaration names the target and either names the source or is a
wildcard that does not except it. Neither the order of the declarations nor the splitting of one
into several matters. -/
theorem ofTransitions_exact (transitions : List Transition) (statuses : List String) :
    (ofTransitions transitions statuses).keys.Nodup ∧
      (∀ status, status ∈ (ofTransitions transitions statuses).keys ↔ status ∈ statuses) ∧
      (∀ source target, target ∈ (ofTransitions transitions statuses).destinations source ↔
        source ∈ statuses ∧ target ∈ statuses ∧ ∃ t ∈ transitions, target ∈ t.targets ∧
          (t.source = source ∧ t.source ≠ wildcard ∨
            t.source = wildcard ∧ source ∉ t.exceptions)) ∧
      (∀ others : List Transition, others.Perm transitions →
        ofTransitions others statuses = ofTransitions transitions statuses) ∧
      ∀ before t after pieces, transitions = before ++ t :: after → Transition.IsSplit pieces t →
        ofTransitions (before ++ pieces ++ after) statuses =
          ofTransitions transitions statuses := by
  refine ⟨?nodup, ?statuses, ?moves, ?order, ?split⟩
  case nodup => exact keys_ofTransitions ▸ nodup_eraseDups statuses
  case statuses => simp [keys_ofTransitions]
  case moves =>
    intro source target
    simp only [mem_destinations_ofTransitions, Transition.leadsFrom_iff, and_comm]
  case order =>
    intro others perm
    refine ofTransitions_congr fun source target => ?_
    simp only [perm.mem_iff]
  case split =>
    rintro before t after pieces rfl split
    refine ofTransitions_congr fun source target => ?_
    simp only [List.mem_append, List.mem_cons, or_and_right, exists_or, exists_eq_left,
      split.moves, or_assoc]

/-- Of three statuses, all but the last lead to the first and the last one, and the last leads back
to the second: in either order, and with the wildcard in two pieces. -/
theorem ofTransitions_exact_of_wildcard :
    let onward : Transition := ⟨"onward", wildcard, ["A", "C"], ["C"]⟩
    let back : Transition := ⟨"back", "C", ["B", "unknown"], []⟩
    let table : Edges := [("A", ["A", "C"]), ("B", ["A", "C"]), ("C", ["B"])]
    ofTransitions [onward, back] ["A", "B", "C"] = table ∧
      ofTransitions [back, onward] ["A", "B", "C"] = table ∧
      ofTransitions [⟨"first", wildcard, ["A"], ["C"]⟩, ⟨"second", wildcard, ["C"], ["C"]⟩, back]
        ["A", "B", "C"] = table := by
  intro onward back table
  have htable : ofTransitions [onward, back] ["A", "B", "C"] = table := by decide +kernel
  obtain ⟨-, -, -, horder, hsplit⟩ := ofTransitions_exact [onward, back] ["A", "B", "C"]
  refine ⟨htable, (horder [back, onward] (.swap ..)).trans htable, ?_⟩
  refine (hsplit [] onward [back] [_, _] rfl ⟨?_, ?_, ?_⟩).trans htable <;> simp [onward]

end Edges

end Stageflow
