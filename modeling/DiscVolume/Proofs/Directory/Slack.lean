import DiscVolume.Proofs.Directory.Reach
import DiscVolume.Proofs.Directory.Siblings
import DiscVolume.Proofs.Directory.Traversal

/-! What the children of a directory are read from. A directory is read in whole sectors, so there
are bytes behind its own that belong to nobody. They make a difference only if one of its records
goes on there.
-/

namespace DiscVolume

open Sequencing

namespace Volume

-----------------------------------------------------------------------------------------
-- One piece of a directory
-----------------------------------------------------------------------------------------

variable {volume : Volume σ} {other : Volume τ} {image otherImage : Bytes} {ready : σ → Prop}
variable {otherReady : τ → Prop} {parent : Entry} {entries : List Entry} {medium after : σ}

/-- A piece of a directory is read where all its records are and lead to file entries. -/
theorem entriesIn_eq_ok_iff {size : Nat} {data : Bytes}
    : volume.entriesIn parent size data medium = .ok entries after
      ↔ ∃ identifiers, Directory.records size (Cursor.ofBytes data) = (identifiers, none)
          ∧ volume.entriesOf parent identifiers medium = .ok entries after := by
  rw [entriesIn]
  generalize Directory.records size (Cursor.ofBytes data) = spelled
  obtain ⟨identifiers, failure⟩ := spelled
  constructor
  · intro found
    obtain ⟨those, _, first, found⟩ := bind_ok_iff.mp found
    cases failure with
    | none =>
        cases found
        exact ⟨identifiers, rfl, first⟩
    | some failure => cases found
  · rintro ⟨_, same, found⟩
    cases same
    exact (bind_of_ok found).trans rfl

/-- The records of a piece keep within its own bytes. -/
def KeepsWithin (size : Nat) (data : Bytes) : Prop :=
  Directory.KeepWithin size 0 (Directory.records size (Cursor.ofBytes data)).1

/-- A piece is read from its own bytes alone just where it is with slack behind them and its records
keep within it.
-/
theorem entriesIn_append_iff {data : Bytes} (slack : Bytes)
    : volume.entriesIn parent data.length data medium = .ok entries after
      ↔ volume.entriesIn parent data.length (data ++ slack) medium = .ok entries after
        ∧ KeepsWithin data.length (data ++ slack) := by
  have cut (identifiers : List FileIdentifier)
      : Directory.records data.length (Cursor.ofBytes data) = (identifiers, none)
        ↔ Directory.records data.length (Cursor.ofBytes (data ++ slack)) = (identifiers, none)
          ∧ Directory.KeepWithin data.length 0 identifiers :=
    Directory.records_append_iff (Nat.zero_add _).symm
  rw [entriesIn_eq_ok_iff, entriesIn_eq_ok_iff]
  constructor
  · rintro ⟨identifiers, spelled, found⟩
    obtain ⟨padded, keep⟩ := (cut identifiers).mp spelled
    exact ⟨⟨identifiers, padded, found⟩, by rwa [KeepsWithin, padded]⟩
  · rintro ⟨⟨identifiers, padded, found⟩, keep⟩
    rw [KeepsWithin, padded] at keep
    exact ⟨identifiers, (cut identifiers).mpr ⟨padded, keep⟩, found⟩

-----------------------------------------------------------------------------------------
-- Images that are the same but for slack
-----------------------------------------------------------------------------------------

/-- What is read from a served source is there. -/
theorem slice_of_readExactly {source : Source σ} {offset length : Nat} {data : Bytes}
    (serves : source.Serves image ready) (isReady : ready medium)
    (offsetBounded : (offset : Int) < indexLimit) (lengthBounded : (length : Int) < indexLimit)
    (found : source.readExactly offset length medium = .ok data after)
    : ready after ∧ data = image.slice offset length
      ∧ (image.slice offset length).length = length := by
  obtain ⟨later, readyLater, answer⟩ :=
    serves.readExactly_eq offset length medium isReady (.inr ⟨offsetBounded, lengthBounded⟩)
  rw [found] at answer
  split at answer
  · next whole =>
      cases answer
      exact ⟨readyLater, rfl, whole⟩
  · cases answer

/-- A file entry that is found is held by the sector of its block. -/
theorem holds_of_fileEntryAt {block : Nat} {record : FileEntry}
    (serves : volume.source.Serves image ready) (isReady : ready medium)
    (recorded : block < UInt32.size) (found : volume.fileEntryAt block medium = .ok record after)
    : ready after ∧ volume.HoldsFileEntry image block record := by
  obtain ⟨descriptor, middle, decoded, selected⟩ := bind_ok_iff.mp found
  obtain ⟨data, _, read, settled⟩ := bind_ok_iff.mp decoded
  rw [← Int.natCast_mul] at read
  obtain ⟨valued, rfl⟩ := Access.settle_eq_ok.mp settled
  obtain ⟨readyMiddle, rfl, whole⟩ := slice_of_readExactly serves isReady
    (offsetOf_lt recorded) (by decide) read
  cases descriptor with
  | fileEntry other =>
      cases selected
      refine ⟨readyMiddle, ?_, valued⟩
      simp only [Bytes.slice, List.length_take, List.length_drop] at whole
      rw [sectorSize] at *
      omega
  | _ => cases selected

/-- Two volumes with their partitions in the same place, on images of the same length. -/
structure AreTwins (volume : Volume σ) (image : Bytes) (ready : σ → Prop) (other : Volume τ)
    (otherImage : Bytes) (otherReady : τ → Prop)
    : Prop where
  serves : volume.source.Serves image ready
  servesOther : other.source.Serves otherImage otherReady
  start_eq : other.partition.startLocation = volume.partition.startLocation
  length_eq : otherImage.length = image.length

theorem AreTwins.offsetOf_eq
    (twins : AreTwins volume image ready other otherImage otherReady) (block : Nat)
    : other.offsetOf block = volume.offsetOf block := by
  rw [offsetOf, offsetOf, sectorOf, sectorOf, twins.start_eq]

/-- A volume is a twin of itself. -/
theorem AreTwins.refl (serves : volume.source.Serves image ready)
    : AreTwins volume image ready volume image ready :=
  ⟨serves, serves, rfl, rfl⟩

/-- Two images hold the same file entries for the records that have a name. -/
def SameSectors (volume : Volume σ) (image otherImage : Bytes) (identifiers : List FileIdentifier)
    : Prop :=
  ∀ identifier ∈ named identifiers,
    otherImage.slice (volume.offsetOf identifier.icb.block.toNat) sectorSize
      = image.slice (volume.offsetOf identifier.icb.block.toNat) sectorSize

/-- A file entry is found in both images where they hold the same sector at its block. -/
theorem AreTwins.fileEntryAt_eq_ok {block : Nat} {record : FileEntry} {later : τ}
    (twins : AreTwins volume image ready other otherImage otherReady)
    (same : otherImage.slice (volume.offsetOf block) sectorSize
      = image.slice (volume.offsetOf block) sectorSize)
    (recorded : block < UInt32.size) (isReady : ready medium) (isReadyOther : otherReady later)
    (found : volume.fileEntryAt block medium = .ok record after)
    : ready after
      ∧ ∃ last, otherReady last ∧ other.fileEntryAt block later = .ok record last := by
  obtain ⟨readyAfter, holds⟩ := holds_of_fileEntryAt twins.serves isReady recorded found
  refine ⟨readyAfter, Volume.fileEntryAt_eq_ok twins.servesOther isReadyOther ⟨?_, ?_⟩⟩
  · rw [twins.offsetOf_eq, twins.length_eq]
    exact holds.inside
  · rw [twins.offsetOf_eq, same]
    exact holds.decoded

/-- The same records lead to the same entries, by induction on the records. -/
theorem AreTwins.entriesOf_eq_ok {identifiers : List FileIdentifier} {later : τ}
    (twins : AreTwins volume image ready other otherImage otherReady)
    (same : volume.SameSectors image otherImage identifiers)
    (isReady : ready medium) (isReadyOther : otherReady later)
    (found : volume.entriesOf parent identifiers medium = .ok entries after)
    : ready after
      ∧ ∃ last, otherReady last ∧ other.entriesOf parent identifiers later = .ok entries last := by
  induction identifiers generalizing medium later entries with
  | nil =>
      cases found
      exact ⟨isReady, later, isReadyOther, rfl⟩
  | cons identifier others ih =>
      rw [entriesOf] at found ⊢
      by_cases hasName : Directory.names identifier = true
      · have kept : named (identifier :: others) = identifier :: named others := by
          rw [named_eq, named_eq, List.filter_cons_of_pos hasName]
        rw [SameSectors, kept, List.forall_mem_cons] at same
        rw [if_pos hasName] at found ⊢
        obtain ⟨record, middle, first, found⟩ := bind_ok_iff.mp found
        obtain ⟨more, _, rest, found⟩ := bind_ok_iff.mp found
        cases found
        obtain ⟨readyMiddle, between, readyBetween, firstOther⟩ := twins.fileEntryAt_eq_ok same.1
          identifier.icb.block.toNat_lt isReady isReadyOther first
        obtain ⟨readyAfter, last, readyLast, restOther⟩ :=
          ih same.2 readyMiddle readyBetween rest
        refine ⟨readyAfter, last, readyLast, ?_⟩
        rw [bind_of_ok firstOther, bind_of_ok restOther]
        rfl
      · have dropped : named (identifier :: others) = named others := by
          rw [named_eq, named_eq, List.filter_cons_of_neg hasName]
        rw [SameSectors, dropped] at same
        rw [if_neg hasName] at found ⊢
        exact ih same isReady isReadyOther found

/-- Bytes of a directory that are read alone are read with any slack behind them. -/
theorem AreTwins.entriesIn_append {data : Bytes} {later : τ}
    (twins : AreTwins volume image ready other otherImage otherReady)
    (same : volume.SameSectors image otherImage
      (Directory.records data.length (Cursor.ofBytes data)).1)
    (otherSlack : Bytes) (isReady : ready medium) (isReadyOther : otherReady later)
    (found : volume.entriesIn parent data.length data medium = .ok entries after)
    : ready after
      ∧ ∃ last, otherReady last
        ∧ other.entriesIn parent data.length (data ++ otherSlack) later = .ok entries last := by
  obtain ⟨identifiers, spelled, found⟩ := entriesIn_eq_ok_iff.mp found
  rw [spelled] at same
  obtain ⟨readyAfter, last, readyLast, foundOther⟩ :=
    twins.entriesOf_eq_ok same isReady isReadyOther found
  refine ⟨readyAfter, last, readyLast, ?_⟩
  exact ((entriesIn_append_iff otherSlack).mp
    (entriesIn_eq_ok_iff.mpr ⟨identifiers, spelled, foundOther⟩)).1

-----------------------------------------------------------------------------------------
-- Pieces that are recorded in blocks
-----------------------------------------------------------------------------------------

/-- The own bytes of a piece. -/
def pieceOf (volume : Volume σ) (image : Bytes) (piece : Nat × Nat) : Bytes :=
  image.slice (volume.offsetOf piece.1) piece.2

/-- The records of a piece keep within its own bytes, though its sectors are read as a whole. -/
def PieceKeepsWithin (volume : Volume σ) (image : Bytes) (piece : Nat × Nat) : Prop :=
  KeepsWithin piece.2 (image.slice (volume.offsetOf piece.1) (sectorsFor piece.2 * sectorSize))

/-- Two images hold the same for a piece: its own bytes, and the file entries that the records in
them lead to.
-/
structure SamePiece (volume : Volume σ) (image otherImage : Bytes) (piece : Nat × Nat) : Prop where
  pieceOf_eq : volume.pieceOf otherImage piece = volume.pieceOf image piece
  sameSectors : volume.SameSectors image otherImage
    (Directory.records (volume.pieceOf image piece).length
      (Cursor.ofBytes (volume.pieceOf image piece))).1

/-- The sectors of a piece are inside the image where they have been read. -/
theorem inside_of_readExactly {block size : Nat} {data : Bytes}
    (serves : volume.source.Serves image ready) (isReady : ready medium)
    (recorded : block < UInt32.size) (short : size < 0x40000000)
    (found : volume.source.readExactly (volume.offsetOf block) (sectorsFor size * sectorSize) medium
      = .ok data after)
    : ready after
      ∧ data = image.slice (volume.offsetOf block) (sectorsFor size * sectorSize)
      ∧ (0 < size → volume.offsetOf block + sectorsFor size * sectorSize ≤ image.length) := by
  obtain ⟨readyAfter, data_eq, whole⟩ :=
    slice_of_readExactly serves isReady (offsetOf_lt recorded) (sectorsFor_mul_lt short) found
  refine ⟨readyAfter, data_eq, fun positive => ?_⟩
  have enough := le_sectorsFor size
  simp only [Bytes.slice, List.length_take, List.length_drop] at whole
  omega

/-- A piece that has been read has all its own bytes. -/
theorem length_pieceOf {block size : Nat}
    (inside : 0 < size → volume.offsetOf block + sectorsFor size * sectorSize ≤ image.length)
    : (volume.pieceOf image (block, size)).length = size := by
  by_cases empty : size = 0
  · simp [pieceOf, Bytes.slice, empty]
  · have covered := inside (by omega)
    have enough := le_sectorsFor size
    exact Bytes.length_slice (by dsimp only; omega)

/-- One piece has the same entries in both images: both hold its own bytes, each with a slack of its
own behind them.
-/
theorem AreTwins.piece_eq_ok {block size : Nat} {data : Bytes} {middle : σ} {later : τ}
    (twins : AreTwins volume image ready other otherImage otherReady)
    (recorded : block < UInt32.size ∧ size < 0x40000000)
    (same : volume.SamePiece image otherImage (block, size))
    (keep : volume.PieceKeepsWithin image (block, size))
    (isReady : ready medium) (isReadyOther : otherReady later)
    (read : volume.source.readExactly (volume.offsetOf block) (sectorsFor size * sectorSize) medium
      = .ok data middle)
    (found : volume.entriesIn parent size data middle = .ok entries after)
    : ready after
      ∧ ∃ otherData begun last, otherReady last
        ∧ other.source.readExactly (other.offsetOf block) (sectorsFor size * sectorSize) later
          = .ok otherData begun
        ∧ other.entriesIn parent size otherData begun = .ok entries last := by
  obtain ⟨readyMiddle, rfl, inside⟩ :=
    inside_of_readExactly twins.serves isReady recorded.1 recorded.2 read
  have insideOther : 0 < size
      → other.offsetOf block + sectorsFor size * sectorSize ≤ otherImage.length := by
    rwa [twins.offsetOf_eq, twins.length_eq]
  obtain ⟨begun, readyBegun, readOther⟩ :=
    readPiece_eq_ok twins.servesOther isReadyOther recorded.1 insideOther
  have length := length_pieceOf inside
  obtain ⟨slack, spelled⟩ : ∃ slack,
      image.slice (volume.offsetOf block) (sectorsFor size * sectorSize)
        = volume.pieceOf image (block, size) ++ slack :=
    ⟨_, slice_sectors ..⟩
  obtain ⟨otherSlack, spelledOther⟩ : ∃ slack,
      otherImage.slice (other.offsetOf block) (sectorsFor size * sectorSize)
        = volume.pieceOf image (block, size) ++ slack := by
    rw [← same.pieceOf_eq, pieceOf, ← twins.offsetOf_eq]
    exact ⟨_, slice_sectors ..⟩
  rw [PieceKeepsWithin, spelled] at keep
  rw [spelled] at found
  rw [spelledOther] at readOther
  have sameSectors := same.sameSectors
  generalize volume.pieceOf image (block, size) = own at *
  subst length
  obtain ⟨readyAfter, last, readyLast, foundOther⟩ := twins.entriesIn_append sameSectors
    otherSlack readyMiddle readyBegun ((entriesIn_append_iff slack).mpr ⟨found, keep⟩)
  exact ⟨readyAfter, _, begun, last, readyLast, readOther, foundOther⟩

/-- The pieces of a directory have the same entries in both images, by induction on the pieces. -/
theorem AreTwins.entriesAt_eq_ok {pieces : List (Nat × Nat)} {later : τ}
    (twins : AreTwins volume image ready other otherImage otherReady)
    (recorded : ∀ piece ∈ pieces, piece.1 < UInt32.size ∧ piece.2 < 0x40000000)
    (same : ∀ piece ∈ pieces, volume.SamePiece image otherImage piece)
    (keep : ∀ piece ∈ pieces, volume.PieceKeepsWithin image piece)
    (isReady : ready medium) (isReadyOther : otherReady later)
    (found : volume.entriesAt parent pieces medium = .ok entries after)
    : ∃ last, otherReady last ∧ other.entriesAt parent pieces later = .ok entries last := by
  induction pieces generalizing medium later entries with
  | nil =>
      cases found
      exact ⟨later, isReadyOther, rfl⟩
  | cons piece others ih =>
      obtain ⟨block, size⟩ := piece
      obtain ⟨recordedHere, recordedOthers⟩ := List.forall_mem_cons.mp recorded
      obtain ⟨sameHere, sameOthers⟩ := List.forall_mem_cons.mp same
      obtain ⟨keepHere, keepOthers⟩ := List.forall_mem_cons.mp keep
      obtain ⟨data, middle, read, found⟩ := bind_ok_iff.mp found
      obtain ⟨here, between, first, found⟩ := bind_ok_iff.mp found
      obtain ⟨more, _, rest, found⟩ := bind_ok_iff.mp found
      cases found
      obtain ⟨readyBetween, _, _, _, readyNext, readOther, firstOther⟩ :=
        twins.piece_eq_ok recordedHere sameHere keepHere isReady isReadyOther read first
      obtain ⟨last, readyLast, restOther⟩ :=
        ih recordedOthers sameOthers keepOthers readyBetween readyNext rest
      refine ⟨last, readyLast, ?_⟩
      rw [entriesAt, bind_of_ok readOther, bind_of_ok firstOther, bind_of_ok restOther]
      rfl

-----------------------------------------------------------------------------------------
-- Whole directories
-----------------------------------------------------------------------------------------

/-- The records of all pieces keep within the pieces. -/
def RecordsKeepWithin (volume : Volume σ) (image : Bytes) (data : FileData) : Prop :=
  ∀ piece ∈ data.allocations, volume.PieceKeepsWithin image piece

/-- Two images hold the same for a directory, apart from the slack behind its pieces. -/
def SameDirectory (volume : Volume σ) (image otherImage : Bytes) : FileData → Prop
  | .embedded data =>
      volume.SameSectors image otherImage (Directory.records data.length (Cursor.ofBytes data)).1
  | recorded => ∀ piece ∈ recorded.allocations, volume.SamePiece image otherImage piece

theorem AreTwins.entriesFor_eq_ok {later : τ}
    (twins : AreTwins volume image ready other otherImage otherReady)
    (same : volume.SameDirectory image otherImage parent.record.data)
    (keep : volume.RecordsKeepWithin image parent.record.data)
    (isReady : ready medium) (isReadyOther : otherReady later)
    (found : volume.entriesFor parent medium = .ok entries after)
    : ∃ last, otherReady last ∧ other.entriesFor parent later = .ok entries last := by
  have recorded : ∀ piece ∈ parent.record.data.allocations,
      piece.1 < UInt32.size ∧ piece.2 < 0x40000000 :=
    fun piece member =>
      ⟨parent.record.data.block_lt piece member, parent.record.data.length_lt piece member⟩
  rw [entriesFor] at found ⊢
  cases stored : parent.record.data with
  | embedded data =>
      rw [stored] at found same
      obtain ⟨-, last, readyLast, foundOther⟩ :=
        twins.entriesIn_append same [] isReady isReadyOther found
      rw [List.append_nil] at foundOther
      exact ⟨last, readyLast, foundOther⟩
  | short allocations =>
      rw [stored] at found same keep recorded
      exact twins.entriesAt_eq_ok recorded same keep isReady isReadyOther found
  | long allocations =>
      rw [stored] at found same keep recorded
      exact twins.entriesAt_eq_ok recorded same keep isReady isReadyOther found

/-- What stands in the slack behind its pieces makes no difference to the entries of a directory if
all records keep within the pieces.
-/
theorem AreTwins.readDirectory_eq_ok {later : τ}
    (twins : AreTwins volume image ready other otherImage otherReady)
    (same : volume.SameDirectory image otherImage parent.record.data)
    (keep : volume.RecordsKeepWithin image parent.record.data)
    (isReady : ready medium) (isReadyOther : otherReady later)
    (found : volume.readDirectory parent medium = .ok entries after)
    : ∃ last, other.readDirectory parent later = .ok entries last := by
  obtain ⟨isDirectory, middle, listed, -⟩ := readDirectory_ok_iff.mp found
  obtain ⟨last, -, listedOther⟩ := twins.entriesFor_eq_ok same keep isReady isReadyOther listed
  exact ⟨_, readDirectory_ok_iff.mpr ⟨isDirectory, last, listedOther, rfl⟩⟩

/-- The same bytes make up a directory in its file entry and another that is recorded in blocks. -/
structure HoldSameBytes (volume : Volume σ) (image : Bytes) (inline extent : Entry) (data : Bytes)
    (block : Nat)
    : Prop where
  inline_eq : inline.record.data = .embedded data
  inline_isDirectory : inline.isDirectory = true
  extent_eq : extent.record.data.allocations = [(block, data.length)]
  extent_isDirectory : extent.isDirectory = true
  inside : volume.offsetOf block + sectorsFor data.length * sectorSize ≤ image.length
  pieceOf_eq : volume.pieceOf image (block, data.length) = data

variable {inline extent : Entry} {data : Bytes} {block : Nat} {later : σ}

theorem HoldSameBytes.entriesFor_inline
    (holds : volume.HoldSameBytes image inline extent data block)
    : volume.entriesFor inline = volume.entriesIn inline data.length data := by
  rw [entriesFor, holds.inline_eq]

theorem HoldSameBytes.entriesFor_extent
    (holds : volume.HoldSameBytes image inline extent data block)
    : volume.entriesFor extent = volume.entriesAt extent [(block, data.length)] := by
  rw [← holds.extent_eq, entriesFor]
  cases stored : extent.record.data with
  | embedded other =>
      have pieces := holds.extent_eq
      rw [stored] at pieces
      cases pieces
  | short | long => rfl

/-- The sectors of the extent hold the bytes of the directory and slack behind them. -/
theorem HoldSameBytes.exists_slack
    (holds : volume.HoldSameBytes image inline extent data block)
    : ∃ slack, image.slice (volume.offsetOf block) (sectorsFor data.length * sectorSize)
        = data ++ slack := by
  obtain ⟨slack, spelled⟩ : ∃ slack,
      image.slice (volume.offsetOf block) (sectorsFor data.length * sectorSize)
        = volume.pieceOf image (block, data.length) ++ slack :=
    ⟨_, slice_sectors ..⟩
  rw [holds.pieceOf_eq] at spelled
  exact ⟨slack, spelled⟩

/-- A directory in its file entry has the same entries when its bytes are recorded in an extent. -/
theorem HoldSameBytes.readDirectory_extent
    (holds : volume.HoldSameBytes image inline extent data block)
    (serves : volume.source.Serves image ready) (isReady : ready medium)
    (isReadyLater : ready later)
    (found : volume.readDirectory inline medium = .ok entries after)
    : ∃ last, volume.readDirectory extent later = .ok (entries.map extent.under) last := by
  obtain ⟨-, middle, listed, -⟩ := readDirectory_ok_iff.mp found
  rw [holds.entriesFor_inline] at listed
  have moved : volume.entriesIn extent data.length data medium
      = .ok (entries.map extent.under) middle := by
    rw [entriesIn_under inline extent]
    exact map_eq_ok.mpr ⟨entries, listed, rfl⟩
  obtain ⟨slack, spelled⟩ := holds.exists_slack
  obtain ⟨begun, readyBegun, read⟩ := serves.readExactly_eq_ok isReadyLater holds.inside
  rw [spelled] at read
  obtain ⟨-, last, -, padded⟩ := (AreTwins.refl serves).entriesIn_append (fun _ _ => rfl) slack
    isReady readyBegun moved
  have pieces : volume.entriesFor extent later = .ok (entries.map extent.under) last := by
    rw [holds.entriesFor_extent, entriesAt, bind_of_ok read, bind_of_ok padded, entriesAt]
    exact (bind_of_ok rfl).trans (by rw [List.append_nil]; rfl)
  exact ⟨_, readDirectory_ok_iff.mpr ⟨holds.extent_isDirectory, last, pieces, rfl⟩⟩

/-- A directory in an extent has the same entries when its bytes are recorded in its file entry, if
its records keep within the extent.
-/
theorem HoldSameBytes.readDirectory_inline
    (holds : volume.HoldSameBytes image inline extent data block)
    (serves : volume.source.Serves image ready) (isReady : ready medium)
    (isReadyLater : ready later)
    (keep : volume.RecordsKeepWithin image extent.record.data)
    (found : volume.readDirectory extent medium = .ok entries after)
    : ∃ last, volume.readDirectory inline later = .ok (entries.map inline.under) last := by
  obtain ⟨slack, spelled⟩ := holds.exists_slack
  have keep : KeepsWithin data.length (data ++ slack) := by
    rw [RecordsKeepWithin, holds.extent_eq, List.forall_mem_singleton, PieceKeepsWithin,
      spelled] at keep
    exact keep
  obtain ⟨begun, readyBegun, read⟩ := serves.readExactly_eq_ok isReady holds.inside
  rw [spelled] at read
  obtain ⟨-, _, listed, -⟩ := readDirectory_ok_iff.mp found
  rw [holds.entriesFor_extent, entriesAt, bind_of_ok read] at listed
  obtain ⟨here, middle, first, listed⟩ := bind_ok_iff.mp listed
  have own := (entriesIn_append_iff slack).mpr ⟨first, keep⟩
  have moved : volume.entriesIn inline data.length data begun
      = .ok (here.map inline.under) middle := by
    rw [entriesIn_under extent inline]
    exact map_eq_ok.mpr ⟨here, own, rfl⟩
  obtain rfl : here = entries := by
    cases (bind_of_ok rfl).symm.trans listed
    rw [List.append_nil]
  obtain ⟨-, last, -, foundInline⟩ := (AreTwins.refl serves).entriesIn_append (fun _ _ => rfl) []
    readyBegun isReadyLater moved
  rw [List.append_nil data, ← holds.entriesFor_inline] at foundInline
  exact ⟨_, readDirectory_ok_iff.mpr ⟨holds.inline_isDirectory, last, foundInline, rfl⟩⟩

/-- What a directory is read from. Bytes of a directory are read alone just where they are read with
slack behind them and no record goes on there. So the slack behind the pieces of a directory makes
no difference to its entries as long as the records keep within the pieces, and neither does it
then whether the bytes are in the file entry or in an extent.
-/
theorem entries_but_for_slack (volume : Volume σ) (τ : Type)
    : (∀ parent (data slack : Bytes) medium entries after,
        volume.entriesIn parent data.length data medium = .ok entries after
        ↔ volume.entriesIn parent data.length (data ++ slack) medium = .ok entries after
          ∧ KeepsWithin data.length (data ++ slack))
      ∧ (∀ image ready (other : Volume τ) otherImage otherReady,
        AreTwins volume image ready other otherImage otherReady
        → ∀ parent : Entry, volume.SameDirectory image otherImage parent.record.data
        → volume.RecordsKeepWithin image parent.record.data
        → ∀ medium later entries after, ready medium → otherReady later
        → volume.readDirectory parent medium = .ok entries after
        → ∃ last, other.readDirectory parent later = .ok entries last)
      ∧ ∀ image ready, volume.source.Serves image ready
        → ∀ inline extent data block, volume.HoldSameBytes image inline extent data block
        → volume.RecordsKeepWithin image extent.record.data
        → ∀ medium later entries after, ready medium → ready later
        → (volume.readDirectory inline medium = .ok entries after
            → ∃ last, volume.readDirectory extent later = .ok (entries.map extent.under) last)
          ∧ (volume.readDirectory extent medium = .ok entries after
            → ∃ last, volume.readDirectory inline later = .ok (entries.map inline.under) last) := by
  refine ⟨fun _ _ slack _ _ _ => entriesIn_append_iff slack, ?_, ?_⟩
  · intro image ready other otherImage otherReady twins parent same keep medium later entries after
      isReady isReadyOther
    exact twins.readDirectory_eq_ok same keep isReady isReadyOther
  · intro image ready serves inline extent data block holds keep medium later entries after isReady
      isReadyLater
    exact ⟨holds.readDirectory_extent serves isReady isReadyLater,
      holds.readDirectory_inline serves isReady isReadyLater keep⟩

/-- The small image with other bytes in the slack behind its directory. -/
def otherSmallImage : Bytes := smallImage.take 4180 ++ List.replicate 1964 7

def otherSmallVolume : Volume Unit :=
  { smallVolume with source := .ofContents ⟨otherSmallImage.toArray⟩ }

theorem length_otherSmallImage : otherSmallImage.length = smallImage.length := by
  rw [otherSmallImage, List.length_append, List.length_take, List.length_replicate,
    length_smallImage]
  rfl

/-- Up to the end of the directory the images are the same. -/
theorem slice_otherSmallImage {offset length : Nat} (before : offset + length ≤ 4180)
    : otherSmallImage.slice offset length = smallImage.slice offset length := by
  have taken : (smallImage.take 4180).length = 4180 := by
    rw [List.length_take, length_smallImage]
    rfl
  rw [otherSmallImage, Bytes.slice, List.drop_append_of_le_length (by omega),
    List.take_append_of_le_length (by rw [List.length_drop]; omega), List.drop_take,
    List.take_take, Nat.min_eq_left (by omega), Bytes.slice]

/-- The records of the small directory, whatever follows them. -/
theorem records_small (rest : Bytes)
    : Directory.records 84
        (Cursor.ofBytes (smallVolume.pieceOf smallImage (1, 84) ++ rest))
      = ([wayBack, deletedRecord], none) := by
  have spells : Directory.Spells [wayBack, deletedRecord]
      (spellingOfWayBack.bytes ++ (spellingOfDeleted.bytes ++ [])) :=
    .cons spellingOfWayBack (.cons spellingOfDeleted .nil)
  rw [pieceOf, slice_smallImage]
  exact spells.records_eq 0 rest

theorem entries_but_for_slack_small
    : smallImage ≠ otherSmallImage
      ∧ ∃ entries after last, smallVolume.readDirectory smallRoot () = .ok entries after
        ∧ otherSmallVolume.readDirectory smallRoot () = .ok entries last := by
  have twins : AreTwins smallVolume smallImage (fun _ => True) otherSmallVolume otherSmallImage
      (fun _ => True) :=
    ⟨.ofContents ⟨smallImage.toArray⟩, .ofContents ⟨otherSmallImage.toArray⟩, rfl,
      length_otherSmallImage⟩
  have only : named [wayBack, deletedRecord] = [deletedRecord] := by decide
  have own := records_small []
  rw [List.append_nil] at own
  have length : (smallVolume.pieceOf smallImage (1, 84)).length = 84 := by
    rw [pieceOf, slice_smallImage]
    rfl
  have piece : smallVolume.SamePiece smallImage otherSmallImage (1, 84) := by
    refine ⟨slice_otherSmallImage (by decide), fun identifier member => ?_⟩
    rw [length, own, only, List.mem_singleton] at member
    subst member
    exact slice_otherSmallImage (by decide)
  have same : smallVolume.SameDirectory smallImage otherSmallImage smallRoot.record.data :=
    List.forall_mem_singleton.mpr piece
  have keep : smallVolume.RecordsKeepWithin smallImage smallRoot.record.data := by
    refine List.forall_mem_singleton.mpr ?_
    rw [PieceKeepsWithin, slice_sectors, KeepsWithin]
    change Directory.KeepWithin 84 0 (Directory.records 84 (Cursor.ofBytes
      (smallVolume.pieceOf smallImage (1, 84) ++ _))).1
    rw [records_small]
    decide
  have reachable : ∀ identifier ∈ named [wayBack, deletedRecord],
      ∃ record, smallVolume.HoldsFileEntry smallImage identifier.icb.block.toNat record := by
    rw [only]
    exact List.forall_mem_singleton.mpr ⟨blankFileEntry, smallVolume_holds⟩
  obtain ⟨entries, after, -, found, -⟩ := Volume.readDirectory_eq_ok twins.serves trivial
    (by decide) smallVolume_lists reachable
  obtain ⟨last, foundOther⟩ := (entries_but_for_slack smallVolume Unit).2.1 smallImage
    (fun _ => True) otherSmallVolume otherSmallImage (fun _ => True) twins smallRoot same keep () ()
    entries after trivial trivial found
  refine ⟨fun equal => ?_, entries, after, last, found, foundOther⟩
  have last : smallImage.getLast? = some 0 := by
    rw [smallImage, List.getLast?_append, List.getLast?_append, List.getLast?_replicate]
    rfl
  have otherLast : otherSmallImage.getLast? = some 7 := by
    rw [otherSmallImage, List.getLast?_append, List.getLast?_replicate]
    rfl
  rw [equal, otherLast] at last
  cases last

-----------------------------------------------------------------------------------------
-- A record that goes on in the slack
-----------------------------------------------------------------------------------------

/-- A record with a name of two letters that leads to the file entry of the small image. -/
def twoLetters (first second : UInt8) : FileIdentifier.Spelling (.plain [first, second] 0) :=
  FileIdentifier.plainSpelling [first, second] 0 (by simp)

/-- Of the name of the record only the compression identifier is in the directory. -/
def cutBytes : Bytes := (twoLetters 65 66).bytes.take 39

theorem twoLetters_bytes (first second : UInt8)
    : (twoLetters first second).bytes = cutBytes ++ [first, second, 0, 0, 0] := by
  have filler : (twoLetters first second).filler = [0, 0, 0] := by
    simp [twoLetters, FileIdentifier.plainSpelling]
  rw [FileIdentifier.Spelling.bytes, FileIdentifier.body, filler]
  rfl

/-- The entry that a record with two letters becomes. -/
def twoLettersEntry (first second : UInt8) : Entry :=
  .child blankFileEntry (.plain [first, second] 0) smallRoot

/-- The record is read with the letters that are found in the slack. -/
theorem records_twoLetters (first second : UInt8)
    : Directory.records cutBytes.length (Cursor.ofBytes (cutBytes ++ [first, second, 0, 0, 0]))
      = ([.plain [first, second] 0], none) := by
  have read := Directory.reads_record (twoLetters first second) 0 []
  rw [List.append_nil, twoLetters_bytes] at read
  have before : 0 < cutBytes.length := by decide
  refine Directory.records_eq_cons_iff.mpr ⟨before, _, read, Directory.records_eq_nil_iff.mpr ?_⟩
  simp

theorem entriesIn_twoLetters (first second : UInt8)
    (hasName : Directory.names (.plain [first, second] 0) = true)
    : smallVolume.entriesIn smallRoot cutBytes.length (cutBytes ++ [first, second, 0, 0, 0]) ()
      = .ok [twoLettersEntry first second] () := by
  have serves : smallVolume.source.Serves smallImage (fun _ => True) :=
    Source.Serves.ofContents ⟨smallImage.toArray⟩
  have isReady : (fun _ : Unit => True) () := trivial
  obtain ⟨_, -, found⟩ := fileEntryAt_eq_ok serves isReady smallVolume_holds
  refine entriesIn_eq_ok_iff.mpr ⟨_, records_twoLetters first second, ?_⟩
  rw [entriesOf, if_pos hasName]
  exact (bind_of_ok found).trans rfl

/-- The slack behind a directory can give a name to an entry, and the bytes of the directory alone
may not be enough to read it.
-/
theorem slack_names_entry
    : smallVolume.entriesIn smallRoot cutBytes.length (cutBytes ++ [65, 66, 0, 0, 0]) ()
        = .ok [twoLettersEntry 65 66] ()
      ∧ smallVolume.entriesIn smallRoot cutBytes.length (cutBytes ++ [88, 89, 0, 0, 0]) ()
        = .ok [twoLettersEntry 88 89] ()
      ∧ (twoLettersEntry 65 66).name = "AB" ∧ (twoLettersEntry 88 89).name = "XY"
      ∧ ∀ entries after,
          smallVolume.entriesIn smallRoot cutBytes.length cutBytes () ≠ .ok entries after := by
  refine ⟨entriesIn_twoLetters 65 66 (by decide), entriesIn_twoLetters 88 89 (by decide),
    by decide, by decide, ?_⟩
  intro entries after found
  obtain ⟨-, keep⟩ := (entriesIn_append_iff [65, 66, 0, 0, 0]).mp found
  rw [KeepsWithin, records_twoLetters] at keep
  have goesOn : ¬ Directory.KeepWithin cutBytes.length 0 [.plain [65, 66] 0] := by decide
  exact goesOn keep

end Volume

end DiscVolume
