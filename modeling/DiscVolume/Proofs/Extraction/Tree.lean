import DiscVolume.Proofs.Extraction.Drives
import DiscVolume.Proofs.Extraction.Levels
import Mathlib.Data.Fintype.Card

/-! The tree of entries below the root. It is finite just if no directory comes up again below
itself: directories with the same file entry have the same entries, and there are only so many
blocks where file entries can be.
-/

namespace DiscVolume.Extraction

open Sequencing

variable {data : ByteArray} {volume : Volume Drive}

/-- The entries of a directory that have safe names, in recorded order. There are none below a
file or in a directory that cannot be read.
-/
def safeChildren (data : ByteArray) (volume : Volume Drive) (entry : Entry) : List Entry :=
  if entry.isDirectory then
    match found data (volume.readDirectory entry) with
    | .ok children => children.filter fun child => HostPath.isSafeName child.name
    | .error _ => []
  else []

/-- An entry is reached from the root through safe names. -/
inductive IsReached (data : ByteArray) (volume : Volume Drive) : Entry → Prop where
  | root {entry : Entry} (isFound : found data volume.root = .ok entry)
      : IsReached data volume entry
  | child {directory entry : Entry} (reached : IsReached data volume directory)
      (isChild : entry ∈ safeChildren data volume directory)
      : IsReached data volume entry

/-- An entry is below a directory, at any depth, through safe names. -/
def IsBelow (data : ByteArray) (volume : Volume Drive) : Entry → Entry → Prop :=
  Relation.TransGen fun directory entry => entry ∈ safeChildren data volume directory

/-- The block with the file entry of an entry, which tells it from all other files. -/
def blockOf (volume : Volume Drive) : Entry → UInt32
  | .root _ _ => volume.fileSet.rootDirectory.block
  | .child _ identifier _ => identifier.icb.block

/-- No directory that is reached comes up again below itself. -/
def IsAcyclic (data : ByteArray) (volume : Volume Drive) : Prop :=
  ∀ directory entry, IsReached data volume directory → IsBelow data volume directory entry
    → blockOf volume entry ≠ blockOf volume directory

/-- The root is found, and every directory that is reached can be read. -/
structure IsReadable (data : ByteArray) (volume : Volume Drive) : Prop where
  exists_root : ∃ root, found data volume.root = .ok root
  exists_children : ∀ directory, IsReached data volume directory → directory.isDirectory = true
    → ∃ children, found data (volume.readDirectory directory) = .ok children

-----------------------------------------------------------------------------------------
-- The same block leads to the same entries
-----------------------------------------------------------------------------------------

variable {drive : Drive}

theorem mem_safeChildren {directory entry : Entry}
    : entry ∈ safeChildren data volume directory
      ↔ directory.isDirectory = true
        ∧ ∃ children, found data (volume.readDirectory directory) = .ok children
            ∧ entry ∈ children ∧ HostPath.isSafeName entry.name = true := by
  unfold safeChildren
  cases directory.isDirectory with
  | false => simp
  | true =>
      cases found data (volume.readDirectory directory) with
      | ok children => simp
      | error failure => simp

/-- The file entry of an entry that is reached is the one at its block. -/
theorem IsReached.answers {entry : Entry} (opens : Opens data volume drive)
    (reached : IsReached data volume entry)
    : (volume.fileEntryAt (blockOf volume entry).toNat).Answers (Drive.Keeps data [])
        (.ok entry.record) := by
  have steady := opens.isSteady []
  have isFresh : Drive.Keeps data [] (freshDrive data) := ⟨.fresh data, rfl⟩
  cases reached with
  | root isFound =>
      obtain ⟨after, isFound⟩ := found_eq_ok.mp isFound
      obtain ⟨record, rfl, atBlock⟩ := Volume.root_ok isFound
      exact (Volume.fileEntryAt_isSteady steady _).answers_of_ok isFresh atBlock
  | child reached isChild =>
      obtain ⟨-, children, listed, isMember, -⟩ := mem_safeChildren.mp isChild
      obtain ⟨after, listed⟩ := found_eq_ok.mp listed
      obtain ⟨-, middle, recorded, -⟩ := Volume.readDirectory_ok_iff.mp listed
      obtain ⟨record, identifier, before, _, rfl, -, isReady, atBlock⟩ :=
        (Volume.found_of_entriesFor steady.leavesReady isFresh recorded).2 entry isMember
      exact (Volume.fileEntryAt_isSteady steady _).answers_of_ok isReady atBlock

/-- Entries at the same block have the same file entry. -/
theorem IsReached.record_eq {entry other : Entry} (opens : Opens data volume drive)
    (reached : IsReached data volume entry) (reachedOther : IsReached data volume other)
    (sameBlock : blockOf volume entry = blockOf volume other)
    : entry.record = other.record := by
  have isFresh : Drive.Keeps data [] (freshDrive data) := ⟨.fresh data, rfl⟩
  have answers := reached.answers opens
  rw [sameBlock] at answers
  obtain ⟨after, -, first⟩ := answers _ isFresh
  obtain ⟨later, -, second⟩ := reachedOther.answers opens _ isFresh
  have same : EStateM.Result.ok entry.record after = .ok other.record later :=
    first.symm.trans second
  exact (EStateM.Result.ok.inj same).1

/-- An entry of a directory is also one of any other directory with the same file entry, except
that it has that for its parent.
-/
theorem under_mem_safeChildren {directory other entry : Entry}
    (sameRecord : other.record = directory.record)
    (isChild : entry ∈ safeChildren data volume directory)
    : other.under entry ∈ safeChildren data volume other
      ∧ (other.under entry).record = entry.record := by
  obtain ⟨isDirectory, children, listed, isMember, isSafe⟩ := mem_safeChildren.mp isChild
  obtain ⟨after, listed⟩ := found_eq_ok.mp listed
  obtain ⟨record, identifier, rfl, -⟩ := Volume.children_of_readDirectory listed entry isMember
  obtain ⟨-, middle, recorded, -⟩ := Volume.readDirectory_ok_iff.mp listed
  refine ⟨?_, rfl⟩
  have alsoDirectory : other.isDirectory = true := by
    unfold Entry.isDirectory at isDirectory ⊢
    rwa [sameRecord]
  have alsoRecorded : volume.entriesFor other (freshDrive data)
      = .ok (children.map other.under) middle := by
    rw [Volume.entriesFor_under sameRecord]
    exact map_eq_ok.mpr ⟨children, recorded, rfl⟩
  have alsoListed := Volume.readDirectory_ok_iff.mpr ⟨alsoDirectory, middle, alsoRecorded, rfl⟩
  refine mem_safeChildren.mpr ⟨alsoDirectory, _, found_eq_ok.mpr ⟨_, alsoListed⟩, ?_, isSafe⟩
  exact List.mem_map_of_mem isMember

/-- Directories with the same file entry go down equally deep, by induction on the depth. -/
theorem level_ne_nil_of_record_eq {depth : Nat} {directory other : Entry}
    (sameRecord : other.record = directory.record)
    (present : level (safeChildren data volume) depth [directory] ≠ [])
    : level (safeChildren data volume) depth [other] ≠ [] := by
  induction depth generalizing directory other with
  | zero => simp [level]
  | succ depth ih =>
      obtain ⟨entry, isChild, present⟩ := (level_ne_nil_iff _).mp present
      obtain ⟨alsoChild, sameRecord⟩ := under_mem_safeChildren sameRecord isChild
      exact (level_ne_nil_iff _).mpr ⟨_, alsoChild, ih sameRecord present⟩

-----------------------------------------------------------------------------------------
-- Circles go down without end
-----------------------------------------------------------------------------------------

/-- What is below a directory that is reached is reached as well. -/
theorem IsBelow.isReached {directory entry : Entry} (below : IsBelow data volume directory entry)
    (reached : IsReached data volume directory)
    : IsReached data volume entry := by
  induction below with
  | single isChild => exact .child reached isChild
  | tail _ isChild ih => exact .child ih isChild

/-- A directory goes down deeper than what is below it. -/
theorem IsBelow.level_ne_nil {depth : Nat} {directory entry : Entry}
    (below : IsBelow data volume directory entry)
    (present : level (safeChildren data volume) depth [entry] ≠ [])
    : level (safeChildren data volume) (depth + 1) [directory] ≠ [] := by
  induction below using Relation.TransGen.head_induction_on with
  | single isChild => exact (level_ne_nil_iff _).mpr ⟨entry, isChild, present⟩
  | head isChild _ ih =>
      have deeper := level_ne_nil_of_le _ (Nat.le_succ depth) ih
      exact (level_ne_nil_iff _).mpr ⟨_, isChild, deeper⟩

/-- The root goes down at least as deep as any entry that is reached from it. -/
theorem IsReached.level_ne_nil {depth : Nat} {root entry : Entry}
    (isRoot : found data volume.root = .ok root) (reached : IsReached data volume entry)
    (present : level (safeChildren data volume) depth [entry] ≠ [])
    : level (safeChildren data volume) depth [root] ≠ [] := by
  induction reached with
  | root isFound =>
      rw [isRoot] at isFound
      cases isFound
      exact present
  | @child directory entry _ isChild ih =>
      have deeper : level (safeChildren data volume) (depth + 1) [directory] ≠ [] :=
        (level_ne_nil_iff _).mpr ⟨entry, isChild, present⟩
      exact ih (level_ne_nil_of_le _ (Nat.le_succ depth) deeper)

/-- A directory that comes up again below itself goes down without end, and so does the root. -/
theorem level_ne_nil_of_not_isAcyclic {root : Entry} (opens : Opens data volume drive)
    (isRoot : found data volume.root = .ok root) (circular : ¬ IsAcyclic data volume) (depth : Nat)
    : level (safeChildren data volume) depth [root] ≠ [] := by
  simp only [IsAcyclic, not_forall, not_not, exists_prop] at circular
  obtain ⟨directory, entry, reached, below, sameBlock⟩ := circular
  have sameRecord := (below.isReached reached).record_eq opens reached sameBlock
  have deep : ∀ depth, level (safeChildren data volume) depth [directory] ≠ [] := by
    intro depth
    induction depth with
    | zero => simp [level]
    | succ depth ih => exact below.level_ne_nil (level_ne_nil_of_record_eq sameRecord ih)
  exact reached.level_ne_nil isRoot (deep depth)

-----------------------------------------------------------------------------------------
-- Without circles the tree is finite
-----------------------------------------------------------------------------------------

/-- All entries of a level are reached. -/
theorem isReached_of_mem_level {depth : Nat} {root entry : Entry}
    (isRoot : found data volume.root = .ok root)
    (member : entry ∈ level (safeChildren data volume) depth [root])
    : IsReached data volume entry := by
  induction depth generalizing entry with
  | zero =>
      obtain rfl := List.mem_singleton.mp member
      exact .root isRoot
  | succ depth ih =>
      rw [level_succ] at member
      obtain ⟨directory, isAbove, isChild⟩ := List.mem_flatMap.mp member
      exact .child (ih isAbove) isChild

/-- An entry that is reached is on some level. -/
theorem IsReached.exists_mem_level {root entry : Entry} (isRoot : found data volume.root = .ok root)
    (reached : IsReached data volume entry)
    : ∃ depth, entry ∈ level (safeChildren data volume) depth [root] := by
  induction reached with
  | root isFound =>
      rw [isRoot] at isFound
      cases isFound
      exact ⟨0, .head _⟩
  | child _ isChild ih =>
      obtain ⟨depth, member⟩ := ih
      refine ⟨depth + 1, ?_⟩
      rw [level_succ]
      exact List.mem_flatMap.mpr ⟨_, member, isChild⟩

/-- Directories that lead to later blocks only form no circle. -/
theorem IsAcyclic.of_lt
    (later : ∀ directory entry, IsReached data volume directory
      → entry ∈ safeChildren data volume directory
      → blockOf volume directory < blockOf volume entry)
    : IsAcyclic data volume := by
  intro directory entry reached below
  suffices behind : IsReached data volume entry
      ∧ blockOf volume directory < blockOf volume entry from
    fun same => absurd behind.2 (same ▸ UInt32.lt_irrefl _)
  induction below with
  | single isChild => exact ⟨.child reached isChild, later _ _ reached isChild⟩
  | tail _ isChild ih =>
      exact ⟨.child ih.1 isChild, UInt32.lt_trans ih.2 (later _ _ ih.1 isChild)⟩

/-- Where no directory comes up again below itself, the blocks of a chain are all different, and
there are not enough of them for chains of any length.
-/
theorem IsAcyclic.exists_level_eq_nil {root : Entry} (isAcyclic : IsAcyclic data volume)
    (isRoot : found data volume.root = .ok root)
    : ∃ depth, level (safeChildren data volume) depth [root] = [] := by
  refine ⟨UInt32.size, ?_⟩
  by_contra present
  obtain ⟨entry, member⟩ := List.exists_mem_of_ne_nil _ present
  obtain ⟨chain, long, isChain, ⟨first, isFirst, starts⟩, -⟩ := (mem_level _).mp member
  obtain rfl := List.mem_singleton.mp isFirst
  have allReached : ∀ entry ∈ chain, IsReached data volume entry := by
    refine List.IsChain.induction _ _ isChain (fun _ _ isChild reached => .child reached isChild) ?_
    intro notEmpty
    rw [List.head?_eq_some_head notEmpty] at starts
    cases starts
    exact .root isRoot
  have below : chain.Pairwise (IsBelow data volume) :=
    (isChain.imp fun _ _ => Relation.TransGen.single).pairwise
  have differ : (chain.map (blockOf volume)).Nodup := by
    refine List.pairwise_map.mpr (below.imp_of_mem fun isAbove _ isBelow same => ?_)
    exact isAcyclic _ _ (allReached _ isAbove) isBelow same.symm
  have injective : Function.Injective UInt32.toFin := fun _ _ same => UInt32.toFin_inj.mp same
  have bounded := (differ.map injective).length_le_card
  simp only [List.length_map, long, Fintype.card_fin] at bounded
  omega

end DiscVolume.Extraction
