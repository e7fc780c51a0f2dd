import DiscVolume.Proofs.Extraction.Confinement
import DiscVolume.Proofs.Extraction.Tree
import Mathlib.Data.List.Induction

/-! The order in which a tree is visited, level by level. Directories come before all that is below
them, which can be told from the names on the way down.
-/

namespace DiscVolume.Extraction

open HostPath (IsComponent)

variable {data : ByteArray} {volume : Volume Drive} {order : List Entry} {entry : Entry}

-----------------------------------------------------------------------------------------
-- Names on the way down
-----------------------------------------------------------------------------------------

/-- A child has one name more than its directory. -/
theorem names_of_mem_safeChildren {directory : Entry}
    (isChild : entry ∈ safeChildren data volume directory)
    : directory.isDirectory = true
      ∧ ∃ name, IsComponent name ∧ entry.names = directory.names ++ [name] := by
  obtain ⟨isDirectory, children, listed, member, isSafe⟩ := mem_safeChildren.mp isChild
  obtain ⟨_, listed⟩ := found_eq_ok.mp listed
  have ofDirectory := Volume.children_of_readDirectory listed entry member
  have isComponent := IsComponent.of_isSafeName isSafe ofDirectory.name_ne_empty
  obtain ⟨record, identifier, rfl, -⟩ := ofDirectory
  exact ⟨isDirectory, identifier.name, isComponent, rfl⟩

/-- The names on the way to an entry that is reached are components. -/
theorem IsReached.areComponents (reached : IsReached data volume entry)
    : ∀ name ∈ entry.names, IsComponent name := by
  induction reached with
  | root isFound =>
      obtain ⟨_, isFound⟩ := found_eq_ok.mp isFound
      obtain ⟨record, rfl, -⟩ := Volume.root_ok isFound
      simp [Entry.names]
  | child _ isChild ih =>
      obtain ⟨-, last, isComponent, namesEq⟩ := names_of_mem_safeChildren isChild
      intro name member
      rw [namesEq] at member
      rcases List.mem_append.mp member with above | here
      · exact ih name above
      · exact List.mem_singleton.mp here ▸ isComponent

/-- What is below a directory has more names behind those of the directory. -/
theorem IsBelow.exists_names {directory : Entry} (below : IsBelow data volume directory entry)
    : ∃ names, names ≠ [] ∧ entry.names = directory.names ++ names := by
  induction below with
  | single isChild =>
      obtain ⟨-, name, -, namesEq⟩ := names_of_mem_safeChildren isChild
      exact ⟨[name], by simp, namesEq⟩
  | tail _ isChild ih =>
      obtain ⟨names, -, aboveEq⟩ := ih
      obtain ⟨-, name, -, namesEq⟩ := names_of_mem_safeChildren isChild
      exact ⟨names ++ [name], by simp, by rw [namesEq, aboveEq, List.append_assoc]⟩

/-- Entries that are extracted to the same file have the same names. -/
theorem IsReached.names_eq {other : Entry} {destination : String}
    (reached : IsReached data volume entry) (reachedOther : IsReached data volume other)
    (same : HostPath.isSame (outputPath destination entry) (outputPath destination other) = true)
    : entry.names = other.names := by
  simp only [HostPath.isSame, Bool.and_eq_true, decide_eq_true_eq] at same
  have samePlace := same.2
  rw [outputPath, outputPath, HostPath.place_foldl_join reached.areComponents,
    HostPath.place_foldl_join reachedOther.areComponents] at samePlace
  exact List.append_cancel_left samePlace

-----------------------------------------------------------------------------------------
-- The order of the levels
-----------------------------------------------------------------------------------------

/-- All entries of a tree, level by level. A level holds the entries with safe names of all the
directories on the level before it, directory by directory and in recorded order.
-/
def IsLevelOrder (data : ByteArray) (volume : Volume Drive) (order : List Entry) : Prop :=
  ∃ root depth, found data volume.root = .ok root
    ∧ level (safeChildren data volume) depth [root] = []
    ∧ order = levels (safeChildren data volume) depth [root]

namespace IsLevelOrder

/-- The entries of the tree are those that are reached. -/
theorem mem_iff (inOrder : IsLevelOrder data volume order)
    : entry ∈ order ↔ IsReached data volume entry := by
  obtain ⟨root, depth, isRoot, bottom, rfl⟩ := inOrder
  constructor
  · intro member
    obtain ⟨above, -, onLevel⟩ := (mem_levels _).mp member
    exact isReached_of_mem_level isRoot onLevel
  · intro reached
    obtain ⟨above, onLevel⟩ := reached.exists_mem_level isRoot
    refine (mem_levels _).mpr ⟨above, ?_, onLevel⟩
    by_contra deep
    exact level_ne_nil_of_le _ (Nat.le_of_not_lt deep) (List.ne_nil_of_mem onLevel) bottom

/-- A tree has only one such order. -/
theorem unique {other : List Entry} (inOrder : IsLevelOrder data volume order)
    (inOther : IsLevelOrder data volume other)
    : order = other := by
  obtain ⟨root, depth, isRoot, bottom, rfl⟩ := inOrder
  obtain ⟨_, deeper, isRootToo, bottomToo, rfl⟩ := inOther
  obtain rfl := Except.ok.inj (isRoot.symm.trans isRootToo)
  rcases Nat.le_total depth deeper with lower | lower
  · exact (levels_eq_of_level_eq_nil _ lower bottom).symm
  · exact levels_eq_of_level_eq_nil _ lower bottomToo

/-- Every directory on the way to an entry comes before it, by induction on the names behind those
of the directory.
-/
theorem exists_above {front back : List Entry} {above below : List String}
    (inOrder : IsLevelOrder data volume order) (split : order = front ++ entry :: back)
    (namesEq : entry.names = above ++ below) (notEmpty : below ≠ [])
    : ∃ directory ∈ front, directory.isDirectory = true ∧ directory.names = above := by
  induction below using List.reverseRecOn generalizing entry front back with
  | nil => exact absurd rfl notEmpty
  | append_singleton below last ih =>
      obtain ⟨root, depth, isRoot, -, rfl⟩ := id inOrder
      rcases exists_before _ split with isTop | ⟨parent, isBefore, isChild⟩
      · -- There are no names on the way to the root.
        obtain rfl := List.mem_singleton.mp isTop
        obtain ⟨_, isFound⟩ := found_eq_ok.mp isRoot
        obtain ⟨record, rfl, -⟩ := Volume.root_ok isFound
        simp [Entry.names] at namesEq
      · obtain ⟨isDirectory, name, -, childEq⟩ := names_of_mem_safeChildren isChild
        rw [childEq, ← List.append_assoc] at namesEq
        obtain ⟨parentEq, -⟩ := List.append_inj' namesEq rfl
        rcases below with _ | ⟨next, others⟩
        · exact ⟨parent, isBefore, isDirectory, by simpa using parentEq⟩
        · obtain ⟨first, between, rfl⟩ := List.append_of_mem isBefore
          rw [List.append_assoc] at split
          obtain ⟨directory, isFirst, found⟩ := ih split parentEq (by simp)
          exact ⟨directory, List.mem_append_left _ isFirst, found⟩

end IsLevelOrder

end DiscVolume.Extraction
