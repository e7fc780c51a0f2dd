import DiscVolume.Proofs.Directory.Spelling
import DiscVolume.Proofs.Medium.Serving
import DiscVolume.Proofs.Volume.Blocks
import DiscVolume.Reader
import Mathlib.Data.List.Forall2

/-! Directories are read completely and soundly. Where the data of a directory spell records, and
each record with a name leads to a file entry, reading the directory delivers one entry for each
of these records, in recorded order, and nothing else.
-/

namespace DiscVolume

open Sequencing

namespace Entry

/-- The names on the way from the root to an entry. -/
def names : Entry → List String
  | root _ _ => []
  | child _ identifier parent => parent.names ++ [identifier.name]

theorem names_eq_nil {entry : Entry} : entry.names = [] ↔ entry.isRoot = true := by
  cases entry with
  | root => simp [names, isRoot]
  | child => simp [names, isRoot]

/-- The path of an entry is its name below the root, and below a directory the path of that
directory comes in front of it.
-/
theorem path_child (record : FileEntry) (identifier : FileIdentifier) (parent : Entry)
    : (child record identifier parent).path
      = if parent.isRoot then identifier.name else parent.path ++ "/" ++ identifier.name := by
  cases parent <;> rfl

/-- The path of an entry is made of the names on the way to it, with slashes between them. -/
theorem path_eq (entry : Entry) : entry.path = String.intercalate "/" entry.names := by
  induction entry with
  | root => simp [path, names]
  | child record identifier parent ih =>
      rw [path_child, names]
      cases isRoot : parent.isRoot with
      | true => simp [names_eq_nil.mpr isRoot]
      | false =>
          have notEmpty : parent.names ≠ [] := fun empty => by
            simp [names_eq_nil.mp empty] at isRoot
          rw [if_neg (by simp), String.intercalate_append_of_ne_nil notEmpty (by simp), ih,
            String.intercalate_singleton]

end Entry

namespace Volume

/-- The sector of a block is inside the image and holds a file entry. -/
structure HoldsFileEntry (volume : Volume σ) (image : Bytes) (block : Nat) (record : FileEntry)
    : Prop where
  inside : volume.offsetOf block + sectorSize ≤ image.length
  decoded : Decoder.value Descriptor.decode
      (Cursor.ofBytes (image.slice (volume.offsetOf block) sectorSize))
    = .ok (.fileEntry record)

/-- Pieces of the partition spell records: the bytes of each piece spell some of them, and the
sectors that a piece needs are inside the image.
-/
inductive SpelledAt (volume : Volume σ) (image : Bytes)
    : List (Nat × Nat) → List FileIdentifier → Prop where
  | nil : SpelledAt volume image [] []
  | cons {block size : Nat} {pieces : List (Nat × Nat)} {here behind : List FileIdentifier}
      (inside : 0 < size → volume.offsetOf block + sectorsFor size * sectorSize ≤ image.length)
      (spells : Directory.Spells here (image.slice (volume.offsetOf block) size))
      (others : SpelledAt volume image pieces behind)
      : SpelledAt volume image ((block, size) :: pieces) (here ++ behind)

/-- The data of a directory spell records, in the file entry itself or in pieces of the partition.
-/
def Lists (volume : Volume σ) (image : Bytes) (data : FileData)
    (identifiers : List FileIdentifier)
    : Prop :=
  match data with
  | .embedded bytes => Directory.Spells identifiers bytes
  | recorded => volume.SpelledAt image recorded.allocations identifiers

/-- What becomes of a record with a name: an entry of the directory, with the file entry that the
record leads to, and with the path that the directory and the name give.
-/
structure IsEntryOf (volume : Volume σ) (image : Bytes) (parent : Entry)
    (identifier : FileIdentifier) (entry : Entry)
    : Prop where
  entry_eq : entry = .child entry.record identifier parent
  holds : volume.HoldsFileEntry image identifier.icb.block.toNat entry.record
  path_eq : entry.path
    = if parent.isRoot then identifier.name else parent.path ++ "/" ++ identifier.name

/-- The records that have a name and are not the way back to the parent. -/
def named (identifiers : List FileIdentifier) : List FileIdentifier :=
  identifiers.filter fun identifier => identifier.name ≠ "" ∧ identifier.isParent = false

theorem named_eq (identifiers : List FileIdentifier)
    : named identifiers = identifiers.filter Directory.names := by
  refine List.filter_congr (fun identifier _ => ?_)
  have empty : identifier.name.isEmpty = decide (identifier.name = "") := by
    rw [Bool.eq_iff_iff, String.isEmpty_iff, decide_eq_true_eq]
  simp [Directory.names, empty]

variable {volume : Volume σ} {image : Bytes} {ready : σ → Prop} {medium : σ}

/-- A file entry is found at the block that holds it. -/
theorem fileEntryAt_eq_ok {block : Nat} {record : FileEntry}
    (serves : volume.source.Serves image ready) (isReady : ready medium)
    (holds : volume.HoldsFileEntry image block record)
    : ∃ after, ready after ∧ volume.fileEntryAt block medium = .ok record after := by
  obtain ⟨after, readyAfter, answer⟩ := serves.readExactly_eq_ok isReady holds.inside
  refine ⟨after, readyAfter, ?_⟩
  have place : ((volume.sectorOf block : Int) * (sectorSize : Int))
      = (volume.offsetOf block : Nat) := by
    rw [offsetOf, Int.natCast_mul]
  have decoded : volume.source.decodeSector (volume.sectorOf block) Descriptor.decode medium
      = .ok (.fileEntry record) after := by
    rw [Source.decodeSector, place, bind_of_ok answer, holds.decoded]
    rfl
  rw [fileEntryAt, Source.descriptorAt, bind_of_ok decoded]
  rfl

/-- Each record with a name becomes an entry, by induction on the records. -/
theorem entriesOf_eq_ok (parent : Entry) {identifiers : List FileIdentifier}
    (serves : volume.source.Serves image ready) (isReady : ready medium)
    (reachable : ∀ identifier ∈ named identifiers,
      ∃ record, volume.HoldsFileEntry image identifier.icb.block.toNat record)
    : ∃ entries after, ready after ∧ volume.entriesOf parent identifiers medium = .ok entries after
        ∧ List.Forall₂ (volume.IsEntryOf image parent) (named identifiers) entries := by
  induction identifiers generalizing medium with
  | nil => exact ⟨[], medium, isReady, rfl, .nil⟩
  | cons identifier others ih =>
      by_cases hasName : Directory.names identifier = true
      · have kept : named (identifier :: others) = identifier :: named others := by
          rw [named_eq, named_eq, List.filter_cons_of_pos hasName]
        rw [kept] at reachable ⊢
        obtain ⟨record, holds⟩ := reachable identifier (by simp)
        obtain ⟨middle, readyMiddle, found⟩ := fileEntryAt_eq_ok serves isReady holds
        obtain ⟨entries, after, readyAfter, rest, matched⟩ :=
          ih readyMiddle (fun other member => reachable other (List.mem_cons_of_mem _ member))
        refine ⟨.child record identifier parent :: entries, after, readyAfter, ?_, ?_⟩
        · rw [entriesOf, if_pos hasName, bind_of_ok found, bind_of_ok rest]
          rfl
        · refine .cons ?_ matched
          exact { entry_eq := rfl, holds := holds, path_eq := Entry.path_child .. }
      · have dropped : named (identifier :: others) = named others := by
          rw [named_eq, named_eq, List.filter_cons_of_neg hasName]
        rw [dropped] at reachable ⊢
        rw [entriesOf, if_neg hasName]
        exact ih isReady reachable

/-- Bytes that spell records and whatever follows them give the entries of these records. -/
theorem entriesIn_eq_ok (parent : Entry) (slack : Bytes) {identifiers : List FileIdentifier}
    {data : Bytes}
    (serves : volume.source.Serves image ready) (isReady : ready medium)
    (spells : Directory.Spells identifiers data)
    (reachable : ∀ identifier ∈ named identifiers,
      ∃ record, volume.HoldsFileEntry image identifier.icb.block.toNat record)
    : ∃ entries after, ready after
        ∧ volume.entriesIn parent data.length (data ++ slack) medium = .ok entries after
        ∧ List.Forall₂ (volume.IsEntryOf image parent) (named identifiers) entries := by
  obtain ⟨entries, after, readyAfter, found, matched⟩ :=
    entriesOf_eq_ok parent serves isReady reachable
  refine ⟨entries, after, readyAfter, ?_, matched⟩
  have records := spells.records_eq 0 slack
  rw [Nat.zero_add] at records
  rw [entriesIn, Cursor.ofBytes, records]
  dsimp only
  rw [bind_of_ok found]
  rfl

theorem le_sectorsFor (size : Nat) : size ≤ sectorsFor size * sectorSize := by
  rw [sectorsFor, sectorSize]
  omega

/-- The bytes read for a piece are those of the piece and the rest of its last sector. -/
theorem slice_sectors (block size : Nat)
    : image.slice (volume.offsetOf block) (sectorsFor size * sectorSize)
      = image.slice (volume.offsetOf block) size
        ++ image.slice (volume.offsetOf block + size) (sectorsFor size * sectorSize - size) := by
  have whole : sectorsFor size * sectorSize = size + (sectorsFor size * sectorSize - size) := by
    have := le_sectorsFor size
    omega
  rw [whole, Bytes.slice, Bytes.slice, Bytes.slice, List.take_add, List.drop_drop]
  congr 2
  omega

/-- The sectors of a piece are read as a whole. No sector is read for an empty piece, so it may
lie anywhere.
-/
theorem readPiece_eq_ok {block size : Nat} (serves : volume.source.Serves image ready)
    (isReady : ready medium) (recorded : block < UInt32.size)
    (inside : 0 < size → volume.offsetOf block + sectorsFor size * sectorSize ≤ image.length)
    : ∃ after, ready after
        ∧ volume.source.readExactly (volume.offsetOf block) (sectorsFor size * sectorSize) medium
          = .ok (image.slice (volume.offsetOf block) (sectorsFor size * sectorSize)) after := by
  by_cases empty : size = 0
  · -- The medium is asked for no bytes, perhaps far behind its end.
    subst empty
    obtain ⟨after, readyAfter, answer⟩ :=
      serves.readExactly_eq (volume.offsetOf block) 0 medium isReady
        (.inr ⟨offsetOf_lt recorded, by decide⟩)
    exact ⟨after, readyAfter, answer⟩
  · exact serves.readExactly_eq_ok isReady (inside (by omega))

/-- The pieces of a directory give the entries of their records, by induction on the pieces. -/
theorem entriesAt_eq_ok (parent : Entry) {pieces : List (Nat × Nat)}
    {identifiers : List FileIdentifier} (serves : volume.source.Serves image ready)
    (isReady : ready medium) (recorded : ∀ piece ∈ pieces, piece.1 < UInt32.size)
    (spelled : volume.SpelledAt image pieces identifiers)
    (reachable : ∀ identifier ∈ named identifiers,
      ∃ record, volume.HoldsFileEntry image identifier.icb.block.toNat record)
    : ∃ entries after, ready after
        ∧ volume.entriesAt parent pieces medium = .ok entries after
        ∧ List.Forall₂ (volume.IsEntryOf image parent) (named identifiers) entries := by
  induction spelled generalizing medium with
  | nil => exact ⟨[], medium, isReady, rfl, .nil⟩
  | @cons block size pieces here behind inside spells others ih =>
      have split : named (here ++ behind) = named here ++ named behind := List.filter_append ..
      rw [split] at reachable ⊢
      have length : (image.slice (volume.offsetOf block) size).length = size := by
        by_cases empty : size = 0
        · simp [Bytes.slice, empty]
        · have covered := inside (by omega)
          have enough := le_sectorsFor size
          exact Bytes.length_slice (by omega)
      obtain ⟨first, readyFirst, read⟩ :=
        readPiece_eq_ok serves isReady (recorded (block, size) (by simp)) inside
      obtain ⟨entries, second, readySecond, found, matched⟩ :=
        entriesIn_eq_ok parent _ serves readyFirst spells
          (fun identifier member => reachable identifier (List.mem_append_left _ member))
      obtain ⟨more, after, readyAfter, rest, matchedRest⟩ :=
        ih readySecond (fun piece member => recorded piece (List.mem_cons_of_mem _ member))
          (fun identifier member => reachable identifier (List.mem_append_right _ member))
      refine ⟨entries ++ more, after, readyAfter, ?_, List.rel_append matched matchedRest⟩
      -- The last sector holds bytes behind the piece; reading stops where the piece ends.
      rw [length] at found
      rw [entriesAt, bind_of_ok read, slice_sectors, bind_of_ok found, bind_of_ok rest]
      rfl

/-- However its data are stored, a directory gives the entries of its records. -/
theorem entriesFor_eq_ok {parent : Entry} {identifiers : List FileIdentifier}
    (serves : volume.source.Serves image ready) (isReady : ready medium)
    (lists : volume.Lists image parent.record.data identifiers)
    (reachable : ∀ identifier ∈ named identifiers,
      ∃ record, volume.HoldsFileEntry image identifier.icb.block.toNat record)
    : ∃ entries after, ready after ∧ volume.entriesFor parent medium = .ok entries after
        ∧ List.Forall₂ (volume.IsEntryOf image parent) (named identifiers) entries := by
  have recorded := parent.record.data.block_lt
  rw [entriesFor]
  cases stored : parent.record.data with
  | embedded data =>
      rw [stored] at lists
      have found := entriesIn_eq_ok parent [] serves isReady lists reachable
      rwa [List.append_nil] at found
  | short allocations =>
      rw [stored] at lists recorded
      exact entriesAt_eq_ok parent serves isReady recorded lists reachable
  | long allocations =>
      rw [stored] at lists recorded
      exact entriesAt_eq_ok parent serves isReady recorded lists reachable

/-- Reading a directory delivers the entries of its records and takes note of them. -/
theorem readDirectory_eq_ok {parent : Entry} {identifiers : List FileIdentifier}
    (serves : volume.source.Serves image ready) (isReady : ready medium)
    (isDirectory : parent.isDirectory = true)
    (lists : volume.Lists image parent.record.data identifiers)
    (reachable : ∀ identifier ∈ named identifiers,
      ∃ record, volume.HoldsFileEntry image identifier.icb.block.toNat record)
    : ∃ entries after, ready after ∧ volume.readDirectory parent medium = .ok entries after
        ∧ List.Forall₂ (volume.IsEntryOf image parent) (named identifiers) entries := by
  obtain ⟨entries, after, readyAfter, found, matched⟩ :=
    entriesFor_eq_ok serves isReady lists reachable
  refine ⟨entries, volume.source.note (.directoryRead entries.length parent.path) after,
    serves.ready_note _ _ readyAfter, ?_, matched⟩
  have blamed : Access.blaming .directory (volume.entriesFor parent) medium
      = .ok entries after := by
    simp only [Access.blaming, found]
  rw [readDirectory, if_neg (by simp [isDirectory]), bind_of_ok blamed]
  rfl

end Volume

namespace Reader

variable {volume : Volume σ} {image : Bytes} {ready : σ → Prop} {medium : σ}

/-- A reader with an open volume finds all entries of a directory and no others: one for each
record with a name that is not the way back, in recorded order.
-/
theorem readDirectory_complete {parent : Entry} {identifiers : List FileIdentifier}
    (serves : volume.source.Serves image ready) (isReady : ready medium)
    (isDirectory : parent.isDirectory = true)
    (lists : volume.Lists image parent.record.data identifiers)
    (reachable : ∀ identifier ∈ Volume.named identifiers,
      ∃ record, volume.HoldsFileEntry image identifier.icb.block.toNat record)
    : ∃ entries after, ready after
        ∧ readDirectory parent ({ volume := some volume }, medium)
          = .ok entries ({ volume := some volume }, after)
        ∧ List.Forall₂ (volume.IsEntryOf image parent) (Volume.named identifiers) entries := by
  obtain ⟨entries, after, readyAfter, found, matched⟩ :=
    Volume.readDirectory_eq_ok serves isReady isDirectory lists reachable
  refine ⟨entries, after, readyAfter, ?_, matched⟩
  have isOpen : opened ({ volume := some volume }, medium)
      = .ok volume ({ volume := some volume }, medium) := rfl
  rw [readDirectory, bind_of_ok isOpen]
  simp only [onMedium, found]

end Reader

/-! A small image: the partition starts at sector 1 with a file entry, and the block after it has
the records of the root directory.
-/

deriving instance Inhabited for Tag, EntityId, CharacterSet, Extent, AllocationLength,
  LongAllocation, AnchorPointer, PrimaryVolume, Partition, LogicalVolume, FileSet

/-- A file entry whose fields are all blank, with a sealed tag. -/
def blankFileEntry : FileEntry where
  tag := ⟨261, 2, 8, 0, 0, 0, 0⟩
  icb := ⟨0, 0, 0, 0, 0, ⟨0, 0⟩, 0⟩
  userId := 0
  groupId := 0
  permissions := 0
  linkCount := 0
  recordFormat := 0
  recordAttributes := 0
  recordLength := 0
  informationLength := 0
  blocksRecorded := 0
  accessTime := none
  modificationTime := none
  attributeTime := none
  checkpoint := 0
  extendedAttributeIcb := {}
  implementation := ⟨0, List.replicate 23 0, List.replicate 8 0⟩
  uniqueId := 0
  extendedAttributesLength := 0
  allocationLength := 0
  extendedAttributes := []
  data := .short []

def wayBack : FileIdentifier := ⟨⟨257, 2, 4, 0, 0, 0, 0⟩, 1, 10, 0, {}, 0, [], ""⟩

/-- A record that is marked deleted and hidden. -/
def deletedRecord : FileIdentifier := ⟨⟨257, 2, 4, 0, 0, 0, 0⟩, 1, 5, 3, {}, 0, [], "AB"⟩

def spellingOfWayBack : FileIdentifier.Spelling wayBack where
  tagBytes := [1, 1, 2, 0, 4, 0, 0, 0, 0, 0, 0, 0, 0, 0, 0, 0]
  icbUse := [0, 0, 0, 0, 0, 0]
  nameBytes := []
  filler := [9, 9]
  length_tagBytes := rfl
  tag_eq := by decide
  kind_eq := rfl
  isSealed := ⟨by decide, by decide, by decide, by decide, by decide⟩
  length_icbUse := rfl
  length_use := rfl
  length_name := rfl
  spellsName := .empty
  length_filler := by decide
  aligned := by decide

def spellingOfDeleted : FileIdentifier.Spelling deletedRecord where
  tagBytes := [1, 1, 2, 0, 4, 0, 0, 0, 0, 0, 0, 0, 0, 0, 0, 0]
  icbUse := [0, 0, 0, 0, 0, 0]
  nameBytes := [8, 65, 66]
  filler := [9, 9, 9]
  length_tagBytes := rfl
  tag_eq := by decide
  kind_eq := rfl
  isSealed := ⟨by decide, by decide, by decide, by decide, by decide⟩
  length_icbUse := rfl
  length_use := rfl
  length_name := rfl
  spellsName := .text 8 [65, 66] "AB" rfl
  length_filler := by decide
  aligned := by decide

def smallImage : Bytes :=
  List.replicate 2048 0 ++ ([5, 1, 2, 0, 8] ++ List.replicate 2043 0)
    ++ (spellingOfWayBack.bytes ++ spellingOfDeleted.bytes ++ List.replicate 1964 0)

def smallVolume : Volume Unit where
  source := .ofContents ⟨smallImage.toArray⟩
  recognition := []
  anchor := default
  mainSequence := []
  primary := default
  partition := { (default : Partition) with startLocation := 1 }
  logical := default
  fileSet := default

def smallRoot : Entry :=
  .root
    {
      blankFileEntry with
      icb := { blankFileEntry.icb with fileType := IcbTag.directoryType }
      data := .short [⟨⟨84, 0⟩, 1⟩]
    }
    "SMALL"

theorem length_smallImage : smallImage.length = 6144 := by
  have first : spellingOfWayBack.bytes.length = 40 := rfl
  have second : spellingOfDeleted.bytes.length = 44 := rfl
  simp only [smallImage, List.length_append, List.length_replicate, first, second,
    List.length_cons, List.length_nil]

set_option maxRecDepth 20000 in
theorem smallVolume_holds : smallVolume.HoldsFileEntry smallImage 0 blankFileEntry where
  inside := by
    rw [length_smallImage]
    decide
  decoded := by rfl

set_option maxRecDepth 20000 in
theorem slice_smallImage
    : smallImage.slice (smallVolume.offsetOf 1) 84
      = spellingOfWayBack.bytes ++ (spellingOfDeleted.bytes ++ []) := by
  rfl

theorem smallVolume_lists
    : smallVolume.Lists smallImage smallRoot.record.data [wayBack, deletedRecord] := by
  have inside : 0 < 84 → smallVolume.offsetOf 1 + sectorsFor 84 * sectorSize
      ≤ smallImage.length := by
    intro _
    rw [length_smallImage]
    decide
  have spells : Directory.Spells [wayBack, deletedRecord]
      (smallImage.slice (smallVolume.offsetOf 1) 84) := by
    rw [slice_smallImage]
    exact .cons spellingOfWayBack (.cons spellingOfDeleted .nil)
  have spelled : smallVolume.SpelledAt smallImage [(1, 84)] ([wayBack, deletedRecord] ++ []) :=
    .cons inside spells .nil
  exact spelled

theorem Reader.readDirectory_complete_small
    : smallVolume.Lists smallImage smallRoot.record.data [wayBack, deletedRecord]
      ∧ smallVolume.HoldsFileEntry smallImage 0 blankFileEntry
      ∧ ∃ entries after,
          readDirectory smallRoot ({ volume := some smallVolume }, ())
            = .ok entries ({ volume := some smallVolume }, after)
          ∧ List.Forall₂ (smallVolume.IsEntryOf smallImage smallRoot) [deletedRecord] entries := by
  have serves : smallVolume.source.Serves smallImage (fun _ => True) :=
    Source.Serves.ofContents ⟨smallImage.toArray⟩
  have reachable : ∀ identifier ∈ Volume.named [wayBack, deletedRecord],
      ∃ record, smallVolume.HoldsFileEntry smallImage identifier.icb.block.toNat record := by
    have only : Volume.named [wayBack, deletedRecord] = [deletedRecord] := by decide
    intro identifier member
    rw [only, List.mem_singleton] at member
    subst member
    exact ⟨blankFileEntry, smallVolume_holds⟩
  have isDirectory : smallRoot.isDirectory = true := by decide
  obtain ⟨entries, after, -, found, matched⟩ :=
    readDirectory_complete serves trivial isDirectory smallVolume_lists reachable
  exact ⟨smallVolume_lists, smallVolume_holds, entries, after, found, matched⟩

end DiscVolume
