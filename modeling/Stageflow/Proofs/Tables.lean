import Mathlib.Algebra.GroupWithZero.Nat
import Mathlib.Data.List.Perm.Subperm
import Stageflow.Table

/-!
# Keys of tables

What is under a key, and in which order the keys stand, once several entries have been put into a
table.
-/

namespace Stageflow

section Duplicates

variable {κ : Type} [DecidableEq κ]

/-- A list in which nothing occurs twice stays as it is. -/
theorem eraseDups_of_nodup {keys : List κ} (h : keys.Nodup) : keys.eraseDups = keys := by
  induction keys with
  | nil => rfl
  | cons key rest ih =>
    obtain ⟨hnot, hrest⟩ := List.nodup_cons.1 h
    have hfilter : (rest.filter fun other => !other == key) = rest := by
      refine List.filter_eq_self.2 fun other hother => ?_
      have hne : other ≠ key := fun heq => hnot (heq ▸ hother)
      simpa using hne
    rw [List.eraseDups_cons, hfilter, ih hrest]

theorem nodup_eraseDups (keys : List κ) : keys.eraseDups.Nodup := by
  induction hlength : keys.length using Nat.strongRecOn generalizing keys with
  | _ n ih =>
    cases keys with
    | nil => exact .nil
    | cons key rest =>
      rw [List.eraseDups_cons, List.nodup_cons, List.mem_eraseDups]
      have hshorter : (rest.filter fun other => !other == key).length < n :=
        hlength ▸ Nat.lt_succ_of_le (List.length_filter_le ..)
      exact ⟨by simp, ih _ hshorter _ rfl⟩

theorem eraseDups_append_cons {key : κ} {keys rest : List κ} (h : key ∈ keys) :
    (keys ++ key :: rest).eraseDups = (keys ++ rest).eraseDups := by
  simp [List.eraseDups_append, List.removeAll, h]

end Duplicates

namespace Table

variable {κ α : Type} [DecidableEq κ] {table pairs : Table κ α} {p : κ × α}

/-- What holds of a value that is put, and of the other values, holds of all values then. -/
theorem forall_get?_put {key : κ} {value : α} {P : κ → α → Prop} (hvalue : P key value)
    (hothers : ∀ other found, other ≠ key → table.get? other = some found → P other found) :
    ∀ other found, (table.put key value).get? other = some found → P other found := by
  intro other found hfound
  by_cases hother : other = key <;> grind [get?_put]

/-- Nothing is lost to a key that nothing was under. -/
theorem get?_put_of_unused {key other : κ} {value found : α} (unused : table.get? key = none)
    (h : table.get? other = some found) : (table.put key value).get? other = some found := by
  have hne : other ≠ key := by
    rintro rfl
    cases unused.symm.trans h
  exact (get?_put_of_ne hne ..).trans h

theorem exists_get? {key : κ} (h : key ∈ table.keys) :
    ∃ value, table.get? key = some value := by
  induction table with
  | nil => cases h
  | cons p rest ih =>
    by_cases hp : p.1 = key
    · exact ⟨p.2, by simp [get?, hp]⟩
    · obtain ⟨value, hvalue⟩ := ih (by simpa [keys, Ne.symm hp] using h)
      exact ⟨value, by simpa [get?, hp] using hvalue⟩

/-- Where keys occur once, each entry is found under its key. -/
theorem get?_of_mem (nodup : table.keys.Nodup) (h : p ∈ table) : table.get? p.1 = some p.2 := by
  induction table with
  | nil => cases h
  | cons q rest ih =>
    obtain ⟨hq, hrest⟩ := List.nodup_cons.1 nodup
    obtain rfl | h := List.mem_cons.1 h
    · simp [get?]
    · have hne : q.1 ≠ p.1 := fun heq => hq (List.mem_map.2 ⟨p, h, heq.symm⟩)
      simpa [get?, hne] using ih hrest h

theorem mem_keys_iff {key : κ} : key ∈ table.keys ↔ ∃ value, table.get? key = some value := by
  refine ⟨exists_get?, fun ⟨value, hvalue⟩ => ?_⟩
  exact List.mem_map.2 ⟨_, mem_of_get? hvalue, rfl⟩

theorem has_iff_mem_keys {key : κ} : table.has key ↔ key ∈ table.keys := by
  rw [has, Option.isSome_iff_exists, mem_keys_iff]

/-- Two tables have the same keys exactly if they are of one length and the one has the keys of the
other. -/
theorem has_eq_iff {first second : Table κ α} (nodup : first.keys.Nodup)
    (others : second.keys.Nodup) :
    (∀ key, first.has key = second.has key) ↔
      first.length = second.length ∧ first.keys ⊆ second.keys := by
  have hkeys : (∀ key, first.has key = second.has key) ↔
      ∀ key, key ∈ first.keys ↔ key ∈ second.keys := by
    refine forall_congr' fun key => ?_
    rw [Bool.eq_iff_iff, has_iff_mem_keys, has_iff_mem_keys]
  have hlength : first.length = second.length ↔ first.keys.length = second.keys.length := by
    simp [keys]
  rw [hkeys, hlength, ← List.perm_ext_iff_of_nodup nodup others]
  constructor
  · exact fun h => ⟨h.length_eq, h.subset⟩
  · rintro ⟨hlength, hsubset⟩
    exact (List.subperm_of_subset nodup hsubset).perm_of_length_le (Nat.le_of_eq hlength.symm)

/-- Tables with the same keys in the same order are equal if they hold the same under each key. -/
theorem ext_get? {first second : Table κ α} (nodup : first.keys.Nodup)
    (keys : first.keys = second.keys)
    (values : ∀ key ∈ first.keys, first.get? key = second.get? key) : first = second := by
  induction first generalizing second with
  | nil => exact (List.map_eq_nil_iff.1 keys.symm).symm
  | cons p rest ih =>
    cases second with
    | nil => cases keys
    | cons q others =>
      obtain ⟨hkey, hkeys⟩ := List.cons.inj keys
      obtain ⟨hnot, hrest⟩ := List.nodup_cons.1 nodup
      have hkey : p.1 = q.1 := hkey
      have hhead : p = q := by
        have hvalue := values p.1 List.mem_cons_self
        exact Prod.ext hkey (by simpa [get?, hkey] using hvalue)
      have htail : rest = others := by
        refine ih hrest hkeys fun key hmem => ?_
        have hne : p.1 ≠ key := by
          rintro rfl
          exact hnot hmem
        have hvalue := values key (List.mem_cons_of_mem _ hmem)
        simpa [get?, hne, hkey ▸ hne] using hvalue
      rw [hhead, htail]

/-- What is put adds its share to a sum, and takes away that of the value it replaces. -/
theorem sum_map_put (key : κ) (value : α) (table : Table κ α) (f : α → Nat) :
    ((table.put key value).values.map f).sum + ((table.get? key).map f).getD 0 =
      (table.values.map f).sum + f value := by
  induction table with
  | nil => simp [put, values]
  | cons p rest ih =>
    unfold put get?
    split
    · simp [values]
      omega
    · simp only [values, List.map_cons, List.sum_cons] at ih ⊢
      omega

/-- A table with further entries put into it, one after another. -/
def putAll (table : Table κ α) (pairs : List (κ × α)) : Table κ α :=
  pairs.foldl (fun table p => table.put p.1 p.2) table

theorem putAll_cons : table.putAll (p :: pairs) = (table.put p.1 p.2).putAll pairs := rfl

theorem putAll_append (first second : List (κ × α)) :
    table.putAll (first ++ second) = (table.putAll first).putAll second := List.foldl_append

theorem nodup_keys_putAll (h : table.keys.Nodup) : (table.putAll pairs).keys.Nodup := by
  induction pairs generalizing table with
  | nil => exact h
  | cons p rest ih => exact ih (nodup_keys_put h)

/-- The keys stand in the order in which they came first. -/
theorem keys_putAll (h : table.keys.Nodup) :
    (table.putAll pairs).keys = (table.keys ++ pairs.keys).eraseDups := by
  induction pairs generalizing table with
  | nil => simpa [putAll, keys] using (eraseDups_of_nodup h).symm
  | cons p rest ih =>
    rw [putAll_cons, ih (nodup_keys_put h), keys_put]
    split
    · rename_i hkey
      exact (eraseDups_append_cons hkey).symm
    · rw [List.append_assoc]
      rfl

/-- An entry is one that was put, or one that was there under a key that was not put. -/
theorem mem_putAll (h : table.keys.Nodup) (hp : p ∈ table.putAll pairs) :
    p ∈ pairs ∨ p ∈ table ∧ p.1 ∉ pairs.keys := by
  induction pairs generalizing table with
  | nil => exact .inr ⟨hp, List.not_mem_nil⟩
  | cons q rest ih =>
    obtain hrest | ⟨hput, hnot⟩ := ih (nodup_keys_put h) hp
    · exact .inl (List.mem_cons_of_mem _ hrest)
    · obtain rfl | ⟨htable, hne⟩ := mem_put_of_nodup h hput
      · exact .inl List.mem_cons_self
      · refine .inr ⟨htable, fun hkey => ?_⟩
        obtain heq | hkey := List.mem_cons.1 hkey
        · exact hne heq
        · exact hnot hkey

/-- Of several tables put into one after another, an entry comes from the last one with its key. -/
theorem mem_putAll_flatMap {δ : Type} {entries : δ → Table κ α} {sources : List δ}
    (h : table.keys.Nodup) (hp : p ∈ table.putAll (sources.flatMap entries)) :
    (p ∈ table ∧ ∀ d ∈ sources, p.1 ∉ (entries d).keys) ∨
      ∃ earlier d later, sources = earlier ++ d :: later ∧ p ∈ entries d ∧
        ∀ d' ∈ later, p.1 ∉ (entries d').keys := by
  induction sources generalizing table with
  | nil => exact .inl ⟨hp, by simp⟩
  | cons d rest ih =>
    rw [List.flatMap_cons, putAll_append] at hp
    obtain ⟨hfirst, hnone⟩ | ⟨earlier, d', later, rfl, hd', hlater⟩ := ih (nodup_keys_putAll h) hp
    · obtain hd | ⟨htable, hnot⟩ := mem_putAll h hfirst
      · exact .inr ⟨[], d, rest, rfl, hd, hnone⟩
      · exact .inl ⟨htable, List.forall_mem_cons.2 ⟨hnot, hnone⟩⟩
    · exact .inr ⟨d :: earlier, d', later, rfl, hd', hlater⟩

theorem put_of_not_mem {key : κ} {value : α} (h : key ∉ table.keys) :
    table.put key value = table ++ [(key, value)] := by
  induction table with
  | nil => rfl
  | cons q rest ih =>
    obtain ⟨hne, hrest⟩ := not_or.1 (mt List.mem_cons.2 h)
    rw [put, if_neg (Ne.symm hne), ih hrest]
    rfl

/-- Entries with different keys are kept as they are. -/
theorem putAll_of_nodup (h : (keys (table ++ pairs)).Nodup) :
    table.putAll pairs = table ++ pairs := by
  induction pairs generalizing table with
  | nil => simp [putAll]
  | cons p rest ih =>
    have hsplit : table ++ p :: rest = table ++ [(p.1, p.2)] ++ rest := by simp
    have hnew : p.1 ∉ table.keys := by
      rw [keys, List.map_append] at h
      exact fun hmem => (List.nodup_append.1 h).2.2 _ hmem _ List.mem_cons_self rfl
    rw [putAll_cons, put_of_not_mem hnew, hsplit]
    exact ih (hsplit ▸ h)

theorem ofPairs_of_nodup (h : (keys pairs).Nodup) : ofPairs pairs = pairs := putAll_of_nodup h

end Table

end Stageflow
