/-!
# Sorting

Insertion sort. It is stable, and structural, so that what sorts can be evaluated in proofs.
-/

namespace Stageflow

variable {α : Type}

/-- Puts an element in front of the first one of a list that it may stand before. -/
def insertBy (before : α → α → Bool) (x : α) : List α → List α
  | [] => [x]
  | y :: rest => if before x y then x :: y :: rest else y :: insertBy before x rest

/-- A list in order; elements that may stand before each other stay as they are. -/
def sortBy (before : α → α → Bool) (xs : List α) : List α := xs.foldr (insertBy before) []

theorem insertBy_perm (before : α → α → Bool) (x : α) (xs : List α) :
    (insertBy before x xs).Perm (x :: xs) := by
  induction xs with
  | nil => exact .refl _
  | cons y rest ih =>
    unfold insertBy
    split
    · exact .refl _
    · exact (ih.cons y).trans (.swap x y rest)

theorem sortBy_perm (before : α → α → Bool) (xs : List α) : (sortBy before xs).Perm xs := by
  induction xs with
  | nil => exact .refl _
  | cons x rest ih => exact (insertBy_perm before x _).trans (ih.cons x)

section Order

variable {before : α → α → Bool}
  (total : ∀ a b, before a b ∨ before b a) (trans : ∀ a b c, before a b → before b c → before a c)
include total trans

/-- What is put into a list in order leaves it in order. -/
theorem pairwise_insertBy (x : α) {xs : List α} (h : xs.Pairwise (before · ·)) :
    (insertBy before x xs).Pairwise (before · ·) := by
  induction xs with
  | nil => simp [insertBy]
  | cons y rest ih =>
    obtain ⟨hy, hrest⟩ := List.pairwise_cons.1 h
    unfold insertBy
    split
    · rename_i hxy
      refine List.pairwise_cons.2 ⟨fun z hz => ?_, h⟩
      obtain rfl | hz := List.mem_cons.1 hz
      · exact hxy
      · exact trans x y z hxy (hy z hz)
    · rename_i hxy
      refine List.pairwise_cons.2 ⟨fun z hz => ?_, ih hrest⟩
      obtain rfl | hz := List.mem_cons.1 ((insertBy_perm before x rest).mem_iff.1 hz)
      · exact (total z y).resolve_left hxy
      · exact hy z hz

/-- If one of any two elements may stand before the other, sorting puts a list in order. -/
theorem pairwise_sortBy (xs : List α) : (sortBy before xs).Pairwise (before · ·) := by
  induction xs with
  | nil => exact .nil
  | cons x rest ih => exact pairwise_insertBy total trans x ih

end Order

theorem mem_sortBy {before : α → α → Bool} {x : α} {xs : List α} :
    x ∈ sortBy before xs ↔ x ∈ xs := (sortBy_perm before xs).mem_iff

end Stageflow
