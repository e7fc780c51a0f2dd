import DiscVolume.Proofs.Medium.Steady
import DiscVolume.Volume

/-! Whatever the medium, the entries that are found in a directory are its own: each has the
directory for its parent, a record with a name that is not the way back, and the file entry that
its record leads to.
-/

namespace DiscVolume

open Sequencing

/-- An entry with a name of its own below some directory. -/
def Entry.IsChildOf (child parent : Entry) : Prop :=
  ∃ record identifier, child = .child record identifier parent ∧ Directory.names identifier = true

theorem Entry.IsChildOf.name_ne_empty {child parent : Entry} (isChild : child.IsChildOf parent)
    : child.name ≠ "" := by
  obtain ⟨record, identifier, rfl, named⟩ := isChild
  intro empty
  have empty : identifier.name = "" := empty
  simp [Directory.names, empty] at named

namespace Volume

/-- A child whose file entry was found at the block of its record while the medium was ready. -/
def IsFoundIn (volume : Volume σ) (ready : σ → Prop) (parent entry : Entry) : Prop :=
  ∃ record identifier before after,
    entry = .child record identifier parent ∧ Directory.names identifier = true ∧ ready before
    ∧ volume.fileEntryAt identifier.icb.block.toNat before = .ok record after

variable {volume : Volume σ} {ready : σ → Prop} {parent : Entry} {medium after : σ}
variable {entries : List Entry}

theorem ready_of_fileEntryAt {block : Nat} {record : FileEntry}
    (leaves : volume.source.LeavesReady ready) (isReady : ready medium)
    (found : volume.fileEntryAt block medium = .ok record after)
    : ready after := by
  obtain ⟨descriptor, middle, decoded, selected⟩ := bind_ok_iff.mp found
  obtain ⟨data, _, read, settled⟩ := bind_ok_iff.mp decoded
  rw [← Int.natCast_mul] at read
  obtain ⟨-, rfl⟩ := Access.settle_eq_ok.mp settled
  have readyMiddle := leaves _ _ _ _ _ isReady read
  cases kind : descriptor.fileEntry? with
  | some value =>
      rw [kind] at selected
      cases selected
      exact readyMiddle
  | none =>
      rw [kind] at selected
      cases selected

/-- Each record leads to an entry of its own, by induction on the records. -/
theorem found_of_entriesOf {identifiers : List FileIdentifier}
    (leaves : volume.source.LeavesReady ready) (isReady : ready medium)
    (found : volume.entriesOf parent identifiers medium = .ok entries after)
    : ready after ∧ ∀ entry ∈ entries, volume.IsFoundIn ready parent entry := by
  induction identifiers generalizing medium entries with
  | nil =>
      cases found
      exact ⟨isReady, by simp⟩
  | cons identifier others ih =>
      rw [entriesOf] at found
      by_cases named : Directory.names identifier = true
      · rw [if_pos named] at found
        obtain ⟨record, middle, first, found⟩ := bind_ok_iff.mp found
        obtain ⟨more, _, rest, found⟩ := bind_ok_iff.mp found
        cases found
        obtain ⟨readyAfter, ofOthers⟩ := ih (ready_of_fileEntryAt leaves isReady first) rest
        refine ⟨readyAfter, ?_⟩
        intro entry member
        rcases List.mem_cons.mp member with rfl | member
        · exact ⟨record, identifier, medium, middle, rfl, named, isReady, first⟩
        · exact ofOthers entry member
      · rw [if_neg named] at found
        exact ih isReady found

theorem found_of_entriesIn {size : Nat} {data : Bytes}
    (leaves : volume.source.LeavesReady ready) (isReady : ready medium)
    (found : volume.entriesIn parent size data medium = .ok entries after)
    : ready after ∧ ∀ entry ∈ entries, volume.IsFoundIn ready parent entry := by
  rw [entriesIn] at found
  generalize Directory.records size (Cursor.ofBytes data) = spelled at found
  obtain ⟨identifiers, failure⟩ := spelled
  obtain ⟨those, _, first, found⟩ := bind_ok_iff.mp found
  cases failure with
  | none =>
      cases found
      exact found_of_entriesOf leaves isReady first
  | some failure => cases found

/-- The pieces of a directory lead to entries of its own, by induction on the pieces. -/
theorem found_of_entriesAt {pieces : List (Nat × Nat)}
    (leaves : volume.source.LeavesReady ready) (isReady : ready medium)
    (found : volume.entriesAt parent pieces medium = .ok entries after)
    : ready after ∧ ∀ entry ∈ entries, volume.IsFoundIn ready parent entry := by
  induction pieces generalizing medium entries with
  | nil =>
      cases found
      exact ⟨isReady, by simp⟩
  | cons piece others ih =>
      obtain ⟨_, _, read, found⟩ := bind_ok_iff.mp found
      obtain ⟨here, _, first, found⟩ := bind_ok_iff.mp found
      obtain ⟨more, _, rest, found⟩ := bind_ok_iff.mp found
      cases found
      have readyHere := leaves _ _ _ _ _ isReady read
      obtain ⟨readyMiddle, ofHere⟩ := found_of_entriesIn leaves readyHere first
      obtain ⟨readyAfter, ofOthers⟩ := ih readyMiddle rest
      refine ⟨readyAfter, ?_⟩
      intro entry member
      rcases List.mem_append.mp member with member | member
      · exact ofHere entry member
      · exact ofOthers entry member

theorem found_of_entriesFor (leaves : volume.source.LeavesReady ready) (isReady : ready medium)
    (found : volume.entriesFor parent medium = .ok entries after)
    : ready after ∧ ∀ entry ∈ entries, volume.IsFoundIn ready parent entry := by
  rw [entriesFor] at found
  cases stored : parent.record.data with
  | embedded data =>
      rw [stored] at found
      exact found_of_entriesIn leaves isReady found
  | short allocations | long allocations =>
      rw [stored] at found
      exact found_of_entriesAt leaves isReady found

/-- What can be read is a directory, and its entries are those recorded for it. -/
theorem readDirectory_ok_iff
    : volume.readDirectory parent medium = .ok entries after
      ↔ parent.isDirectory = true
        ∧ ∃ middle, volume.entriesFor parent medium = .ok entries middle
            ∧ after = volume.source.note (.directoryRead entries.length parent.path) middle := by
  rw [readDirectory]
  cases isDirectory : parent.isDirectory with
  | false =>
      constructor
      · intro found
        cases found
      · rintro ⟨isDirectory, -⟩
        cases isDirectory
  | true =>
      rw [if_neg (by simp)]
      constructor
      · intro found
        obtain ⟨those, middle, blamed, found⟩ := bind_ok_iff.mp found
        cases found
        exact ⟨rfl, middle, Access.blaming_eq_ok.mp blamed, rfl⟩
      · rintro ⟨-, middle, recorded, rfl⟩
        rw [bind_of_ok (Access.blaming_eq_ok.mpr recorded)]
        rfl

/-- What is found in a directory are its children. -/
theorem children_of_readDirectory
    (found : volume.readDirectory parent medium = .ok entries after)
    : ∀ entry ∈ entries, entry.IsChildOf parent := by
  obtain ⟨-, middle, listed, -⟩ := readDirectory_ok_iff.mp found
  have leaves : volume.source.LeavesReady (fun _ => True) := fun _ _ _ _ _ _ _ => trivial
  intro entry member
  obtain ⟨record, identifier, _, _, rfl, named, -⟩ :=
    (found_of_entriesFor leaves trivial listed).2 entry member
  exact ⟨record, identifier, rfl, named⟩

/-- The root directory is found as a root, with the file entry at its block. -/
theorem root_ok {entry : Entry} (found : volume.root medium = .ok entry after)
    : ∃ record, entry = .root record volume.logical.identifier
        ∧ volume.fileEntryAt volume.fileSet.rootDirectory.block.toNat medium
          = .ok record after := by
  rw [root] at found
  obtain ⟨record, _, blamed, found⟩ := bind_ok_iff.mp found
  cases found
  exact ⟨record, rfl, Access.blaming_eq_ok.mp blamed⟩

end Volume

end DiscVolume
