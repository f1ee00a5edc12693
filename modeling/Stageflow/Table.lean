/-!
# Ordered tables

Entries by key, in the order in which the keys were first put. `Table.put` replaces a value where
its key stands; `Table.get?` is the view that the lemmas describe the operations by.
-/

namespace Stageflow

/-- Entries in order. Each key is meant to occur once; `Table.put` keeps it so. -/
abbrev Table (κ α : Type) := List (κ × α)

namespace Table

variable {κ α : Type} [DecidableEq κ]

/-- The value under a key. -/
def get? (key : κ) : Table κ α → Option α
  | [] => none
  | (k, v) :: rest => if k = key then some v else get? key rest

/-- Whether a key occurs. -/
def has (key : κ) (table : Table κ α) : Bool := (table.get? key).isSome

/-- The keys, in order. -/
def keys (table : Table κ α) : List κ := table.map (·.1)

/-- The values, in order. -/
def values (table : Table κ α) : List α := table.map (·.2)

/-- Puts a value under a key: in place if the key occurs, else behind the last entry. -/
def put (key : κ) (value : α) : Table κ α → Table κ α
  | [] => [(key, value)]
  | (k, v) :: rest => if k = key then (k, value) :: rest else (k, v) :: put key value rest

/-- The table without a key. -/
def erase (key : κ) (table : Table κ α) : Table κ α := table.filter (·.1 ≠ key)

/-- A table of entries in order; of a key that occurs twice the last value holds, in the place of
the first. -/
def ofPairs (pairs : List (κ × α)) : Table κ α :=
  pairs.foldl (fun table p => put p.1 p.2 table) []

/-- The entries of which the key and the value pass a test. -/
def select (test : κ → α → Bool) (table : Table κ α) : Table κ α :=
  table.filter fun p => test p.1 p.2

@[simp] theorem get?_nil (key : κ) : get? key ([] : Table κ α) = none := rfl

@[simp] theorem get?_put_self (key : κ) (value : α) (table : Table κ α) :
    get? key (put key value table) = some value := by
  induction table with
  | nil => simp [put, get?]
  | cons p rest ih =>
    by_cases h : p.1 = key
    · simp [put, get?, h]
    · simp [put, get?, h, ih]

theorem get?_put_of_ne {key other : κ} (h : other ≠ key) (value : α) (table : Table κ α) :
    get? other (put key value table) = get? other table := by
  induction table with
  | nil => simp [put, get?, Ne.symm h]
  | cons p rest ih =>
    by_cases hk : p.1 = key
    · simp [put, get?, hk, Ne.symm h]
    · simp [put, get?, hk, ih]

theorem get?_put (key other : κ) (value : α) (table : Table κ α) :
    get? other (put key value table) = if other = key then some value else get? other table := by
  by_cases h : other = key
  · subst h
    simp
  · simp [get?_put_of_ne h, h]

theorem has_put {key other : κ} {value : α} {table : Table κ α} (h : table.has other) :
    (table.put key value).has other := by
  unfold has at h ⊢
  rw [get?_put]
  split
  · rfl
  · exact h

theorem mem_of_get? {key : κ} {value : α} {table : Table κ α} (h : table.get? key = some value) :
    (key, value) ∈ table := by
  induction table with
  | nil => cases h
  | cons p rest ih =>
    unfold get? at h
    split at h
    · rename_i hkey
      cases h
      exact List.mem_cons.2 (.inl (by rw [← hkey]))
    · exact List.mem_cons_of_mem _ (ih h)

theorem keys_put (key : κ) (value : α) (table : Table κ α) :
    keys (put key value table) = if key ∈ keys table then keys table else keys table ++ [key] := by
  induction table with
  | nil => simp [put, keys]
  | cons p rest ih =>
    by_cases h : p.1 = key
    · simp [put, keys, h]
    · simp only [put, h, if_false]
      simp only [keys, List.map_cons, List.mem_cons] at ih ⊢
      rw [ih]
      by_cases m : key ∈ List.map (·.1) rest
      · simp [m]
      · simp [m, Ne.symm h]

theorem nodup_keys_put {key : κ} {value : α} {table : Table κ α} (h : table.keys.Nodup) :
    (table.put key value).keys.Nodup := by
  rw [keys_put]
  split
  · exact h
  · rename_i hkey
    refine List.nodup_append.2 ⟨h, by simp, fun k hk other hother => ?_⟩
    rintro rfl
    exact hkey (List.mem_singleton.1 hother ▸ hk)

/-- What is put replaces the entry under its key, if keys occur once. -/
theorem mem_put_of_nodup {key : κ} {value : α} {table : Table κ α} (nodup : table.keys.Nodup)
    {p : κ × α} (h : p ∈ table.put key value) : p = (key, value) ∨ p ∈ table ∧ p.1 ≠ key := by
  induction table with
  | nil => exact .inl (by simpa [put] using h)
  | cons q rest ih =>
    obtain ⟨hq, hrest⟩ := List.nodup_cons.1 nodup
    unfold put at h
    split at h
    · rename_i hkey
      obtain rfl | h := List.mem_cons.1 h
      · exact .inl (by rw [hkey])
      · refine .inr ⟨List.mem_cons_of_mem _ h, fun heq => hq ?_⟩
        exact List.mem_map.2 ⟨p, h, heq.trans hkey.symm⟩
    · rename_i hkey
      obtain rfl | h := List.mem_cons.1 h
      · exact .inr ⟨by simp, hkey⟩
      · obtain rfl | ⟨h, hne⟩ := ih hrest h
        · exact .inl rfl
        · exact .inr ⟨List.mem_cons_of_mem _ h, hne⟩

theorem mem_put {key : κ} {value : α} {table : Table κ α} {p : κ × α}
    (h : p ∈ table.put key value) : p = (key, value) ∨ p ∈ table := by
  induction table with
  | nil => simpa [put] using h
  | cons q rest ih =>
    unfold put at h
    split at h
    · rename_i hkey
      obtain rfl | h := List.mem_cons.1 h
      · exact .inl (by rw [hkey])
      · exact .inr (by simp [h])
    · obtain rfl | h := List.mem_cons.1 h
      · exact .inr (by simp)
      · obtain rfl | h := ih h
        · exact .inl rfl
        · exact .inr (by simp [h])

/-- What is put adds at most itself to what is counted. -/
theorem countP_values_put (key : κ) (value : α) (table : Table κ α) (chosen : α → Bool) :
    (table.put key value).values.countP chosen ≤
      table.values.countP chosen + if chosen value then 1 else 0 := by
  induction table with
  | nil => simp [put, values, List.countP_cons]
  | cons q rest ih =>
    unfold put
    simp only [values] at ih ⊢
    split <;> simp only [List.map_cons, List.countP_cons] <;> omega

end Table

end Stageflow
