import Stageflow.Project.Tree
import Stageflow.Proofs.Tables

/-!
# Folders of a tree

What a tree leads to, and what the names in its folders are, when a path that led nowhere gets an
entry. Where the folders on the way to a path are there, nothing more is made of them.

## Main statements

* `Tree.addFolders_of_hasFolder` — folders that are there are not made again.
* `Tree.inFolder_put` — the names in a folder when an entry is added.
* `Tree.IsEmptyFolder` — an empty folder, which lies in folders.
-/

namespace Stageflow

variable {tree : Tree} {path other folder : Path} {entry : Entry}

theorem Path.upward_concat (path : Path) (name : String) :
    Path.upward (path ++ [name]) = (path ++ [name]) :: Path.upward path := by
  unfold Path.upward
  rw [List.length_append, List.length_singleton, List.range_succ_eq_map, List.map_cons,
    List.map_map]
  refine List.cons_eq_cons.2 ⟨List.take_of_length_le (by simp), List.map_congr_left fun n hn => ?_⟩
  have hle : path.length - n ≤ path.length := Nat.sub_le ..
  have hlength : path.length + 1 - (n + 1) = path.length - n := by omega
  simp [hlength, List.take_append_of_le_length hle]

theorem Path.exists_upward_eq_cons (path : Path) : ∃ rest, Path.upward path = path :: rest := by
  obtain rfl | ⟨above, name, rfl⟩ := List.eq_nil_or_concat path
  · exact ⟨[], rfl⟩
  · rw [List.concat_eq_append]
    exact ⟨_, Path.upward_concat above name⟩

theorem Path.length_le_of_mem_upward (h : other ∈ Path.upward path) :
    other.length ≤ path.length := by
  obtain ⟨n, -, rfl⟩ := List.mem_map.1 h
  exact Nat.le_trans (List.length_take_le ..) (Nat.sub_le ..)

namespace Tree

/-! ## Folders on the way -/

/-- Whether a path leads to a folder, and so do those on the way to it. -/
def HasFolder (tree : Tree) (path : Path) : Prop := ∀ p ∈ path.upward, tree.get? p = some .folder

/-- What is put below a folder leaves the folders on the way to it as they are. -/
theorem HasFolder.put_below (h : tree.HasFolder path) {below : Path} (hbelow : below ≠ [])
    (entry : Entry) : (tree.put (path ++ below) entry).HasFolder path := by
  intro p hp
  have hne : p ≠ path ++ below := by
    rintro rfl
    have hlength := Path.length_le_of_mem_upward hp
    rw [List.length_append] at hlength
    have := List.length_pos_iff.2 hbelow
    omega
  rw [get?_put_of_ne hne]
  exact h p hp

theorem HasFolder.concat (h : tree.HasFolder path) (name : String)
    (hname : tree.get? (path ++ [name]) = some .folder) : tree.HasFolder (path ++ [name]) := by
  unfold HasFolder
  rw [Path.upward_concat]
  exact List.forall_mem_cons.2 ⟨hname, h⟩

/-- Folders that are there are not made again. -/
theorem addFolders_of_hasFolder (h : tree.HasFolder path) : tree.addFolders path = tree := by
  have hkept (paths : List Path) (hpaths : ∀ p ∈ paths, tree.get? p = some .folder) :
      paths.foldl addFolder tree = tree := by
    induction paths with
    | nil => rfl
    | cons p rest ih =>
      obtain ⟨hp, hrest⟩ := List.forall_mem_cons.1 hpaths
      rw [List.foldl_cons, addFolder, hp]
      exact ih hrest
  exact hkept _ fun p hp => h p (List.mem_reverse.1 hp)

/-- A file is put into a folder that is there. -/
theorem addFile_of_hasFolder (h : tree.HasFolder path) (name text : String) :
    tree.addFile (path ++ [name]) text = tree.put (path ++ [name]) (.file text) := by
  rw [addFile, List.dropLast_concat, addFolders_of_hasFolder h]

/-- What lies below a folder when an entry is put there. -/
theorem get?_put_below {below : Path} (hbelow : below ≠ []) (entry : Entry) (other : Path) :
    (tree.put (folder ++ below) entry).get? (folder ++ other) =
      if other = below then some entry else tree.get? (folder ++ other) := by
  split
  · rename_i heq
    rw [heq]
    exact get?_put_self _ _ _ (by simp [hbelow])
  · rename_i hne
    exact get?_put_of_ne (by simpa using hne) ..

/-! ## Names in a folder -/

/-- The names in a folder as they were put there. -/
def inFolder (tree : Tree) (folder : Path) : List String :=
  tree.entries.filterMap fun p => if p.1.dropLast = folder then p.1.getLast? else none

theorem names_eq (tree : Tree) (folder : Path) :
    tree.names folder = Text.sorted (tree.inFolder folder) := rfl

/-- An entry that is added adds its name to those of its folder. -/
theorem inFolder_put (unused : tree.get? path = none) (entry : Entry) :
    (tree.put path entry).inFolder folder =
      tree.inFolder folder ++ if path.dropLast = folder then path.getLast?.toList else [] := by
  have hpath : path ≠ [] := by
    rintro rfl
    simp [Tree.get?] at unused
  have hkey : path ∉ tree.entries.keys := by
    intro hmem
    obtain ⟨found, hfound⟩ := Table.exists_get? hmem
    simp [Tree.get?, hpath, hfound] at unused
  rw [inFolder, put, Table.put_of_not_mem hkey, List.filterMap_append, inFolder]
  split
  · rename_i hfolder
    cases hlast : path.getLast? <;> simp [hfolder, hlast]
  · rename_i hfolder
    simp [hfolder]

/-- There are no names in a folder in which nothing is found. -/
theorem inFolder_eq_nil (h : ∀ name, tree.get? (folder ++ [name]) = none) :
    tree.inFolder folder = [] := by
  refine List.filterMap_eq_nil_iff.2 fun p hp => ?_
  split
  · rename_i hfolder
    refine List.getLast?_eq_none_iff.2 (by_contra fun hne => ?_)
    have hpath : folder ++ [p.1.getLast hne] = p.1 := by
      rw [← hfolder, List.dropLast_concat_getLast]
    obtain ⟨found, hfound⟩ := Table.exists_get? (List.mem_map_of_mem hp)
    have hnone := h (p.1.getLast hne)
    simp [hpath, Tree.get?, hne, hfound] at hnone
  · rfl

/-! ## Empty folders -/

/-- Whether a path leads to a folder that lies in folders and that nothing lies in. -/
structure IsEmptyFolder (tree : Tree) (folder : Path) : Prop where
  hasFolder : tree.HasFolder folder
  unused : ∀ path, folder <+: path → path ≠ folder → tree.get? path = none

theorem IsEmptyFolder.get?_below (h : tree.IsEmptyFolder folder) (below : Path)
    (hsome : below ≠ []) : tree.get? (folder ++ below) = none :=
  h.unused _ (List.prefix_append ..) (by simpa using hsome)

/-- A folder is empty if no entry has a path that goes on from it. -/
theorem isEmptyFolder_iff : tree.IsEmptyFolder folder ↔
    tree.HasFolder folder ∧ ∀ path ∈ tree.entries.keys, folder <+: path → path = folder := by
  have hroot {path : Path} (hon : folder <+: path) (hne : path ≠ folder) : path ≠ [] := by
    rintro rfl
    exact hne (List.prefix_nil.1 hon).symm
  constructor
  · intro h
    refine ⟨h.hasFolder, fun path hpath hon => by_contra fun hne => ?_⟩
    obtain ⟨entry, hentry⟩ := Table.exists_get? hpath
    have hnone := h.unused path hon hne
    simp [get?, hroot hon hne, hentry] at hnone
  · rintro ⟨hfolder, honly⟩
    refine ⟨hfolder, fun path hon hne => by_contra fun hsome => ?_⟩
    obtain ⟨entry, hentry⟩ := Option.ne_none_iff_exists'.1 hsome
    simp only [get?, List.isEmpty_iff, hroot hon hne, if_false] at hentry
    exact hne (honly path (List.mem_map_of_mem (Table.mem_of_get? hentry)) hon)

instance : Decidable (tree.HasFolder path) :=
  inferInstanceAs (Decidable (∀ p ∈ path.upward, tree.get? p = some .folder))

instance : Decidable (tree.IsEmptyFolder folder) := decidable_of_iff _ isEmptyFolder_iff.symm

end Tree

end Stageflow
