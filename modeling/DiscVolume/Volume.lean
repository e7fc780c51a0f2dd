import DiscVolume.Directory
import DiscVolume.Entry
import DiscVolume.FileStream
import DiscVolume.Recognition
import DiscVolume.Sector

/-! Volumes: the structures found when an image is opened, and the way from them to directories
and the contents of files.
-/

namespace DiscVolume

namespace Source

/-- Decodes what a run of sectors starts with. -/
def decodeSector (source : Source σ) (sector : Nat) (decoder : Decoder α) : Access σ α := do
  let data ← source.readExactly (sector * sectorSize) sectorSize
  Access.settle (decoder.value (Cursor.ofBytes data))

/-- The descriptor of a kind, which must be the one at a sector. -/
def descriptorAt (source : Source σ) (sector : Nat) (kind : DescriptorKind)
    (select : Descriptor → Option α) : Access σ α := do
  let descriptor ← source.decodeSector sector Descriptor.decode
  match select descriptor with
  | some value => pure value
  | none =>
      throw (.malformed (.tagMismatchAtSector kind.tagNumber descriptor.kind.tagNumber sector))

/-- The values decoded from one sector after another, up to and including one that is the last.
Past the end of the medium there is nothing more to decode.
-/
def sequenceFrom (source : Source σ) (decoder : Decoder α) (isLast : α → Bool) (sector : Nat)
    : Access σ (List α) := do
  let value ← source.decodeSector sector decoder
  if isLast value then return [value]
  -- Past the capacity no sector is delivered, so the search ends there at the latest.
  else if sector * sectorSize < source.capacity then do
    let others ← source.sequenceFrom decoder isLast (sector + 1)
    return value :: others
  else throw (.truncated .lookAhead)
termination_by source.capacity - sector * sectorSize
decreasing_by
  unfold sectorSize at *
  omega

end Source

/-- An open image: where it is read from and the structures that describe it. -/
structure Volume (σ : Type) where
  source : Source σ
  recognition : List VolumeStructure
  anchor : AnchorPointer
  mainSequence : List Descriptor
  primary : PrimaryVolume
  partition : Partition
  logical : LogicalVolume
  fileSet : FileSet

namespace Volume

/-- Reads the structures of the volume on a source. -/
def ofSource (source : Source σ) : Access σ (Volume σ) := do
  let recognition ←
    source.sequenceFrom VolumeStructure.decode VolumeStructure.endsSequence recognitionSector
  source.tell (.recognitionRead recognition.length)
  if !Recognition.hasAnyIdentifier StructureKind.nsrIdentifiers recognition then
    throw (.malformed .unsupportedFormat)
  else
    let anchor ← source.descriptorAt anchorSector .anchorPointer Descriptor.anchorPointer?
    let start := anchor.mainSequence.location.toNat
    let mainSequence ←
      source.sequenceFrom Descriptor.decode (fun descriptor => descriptor.kind = .terminating)
        start
    source.tell (.sequenceRead mainSequence.length start)
    let primary ←
      Access.settle (Descriptor.first .primaryVolume Descriptor.primaryVolume? mainSequence)
    let partition ← Access.settle (Descriptor.first .partition Descriptor.partition? mainSequence)
    let logical ←
      Access.settle (Descriptor.first .logicalVolume Descriptor.logicalVolume? mainSequence)
    let fileSet ←
      source.descriptorAt partition.startLocation.toNat .fileSet Descriptor.fileSet?
    return { source, recognition, anchor, mainSequence, primary, partition, logical, fileSet }

/-- Opens the image that is supplied. -/
def ofSupply (supply : Supply σ) : Access σ (Volume σ) := do
  let source ← Access.settle supply.toSource
  source.tell .opening
  Access.blaming .opening (ofSource source)

/-- The sector of a block of the partition. -/
def sectorOf (volume : Volume σ) (block : Nat) : Nat :=
  volume.partition.startLocation.toNat + block

/-- The offset of the first byte of a block of the partition. -/
def offsetOf (volume : Volume σ) (block : Nat) : Nat := volume.sectorOf block * sectorSize

/-- The file entry at a block of the partition. -/
def fileEntryAt (volume : Volume σ) (block : Nat) : Access σ FileEntry :=
  volume.source.descriptorAt (volume.sectorOf block) .fileEntry Descriptor.fileEntry?

/-- The root directory. -/
def root (volume : Volume σ) : Access σ Entry := do
  let record ←
    Access.blaming .rootDirectory (volume.fileEntryAt volume.fileSet.rootDirectory.block.toNat)
  return .root record volume.logical.identifier

/-- The entries that records name, with the file entry each of them leads to. -/
def entriesOf (volume : Volume σ) (parent : Entry) : List FileIdentifier → Access σ (List Entry)
  | [] => pure []
  | identifier :: others =>
      if Directory.names identifier then do
        let record ← volume.fileEntryAt identifier.icb.block.toNat
        let more ← volume.entriesOf parent others
        return .child record identifier parent :: more
      else volume.entriesOf parent others

/-- The entries of one piece of a directory. A record that cannot be read counts after the
entries of the records before it have been found.
-/
def entriesIn (volume : Volume σ) (parent : Entry) (size : Nat) (data : Bytes)
    : Access σ (List Entry) := do
  let (identifiers, failure) := Directory.records size (Cursor.ofBytes data)
  let entries ← volume.entriesOf parent identifiers
  match failure with
  | none => return entries
  | some failure => throw failure

/-- The entries of the pieces of a directory that are recorded in blocks, which are read in
whole sectors.
-/
def entriesAt (volume : Volume σ) (parent : Entry) : List (Nat × Nat) → Access σ (List Entry)
  | [] => pure []
  | (block, size) :: others => do
      let data ←
        volume.source.readExactly (volume.offsetOf block) (sectorsFor size * sectorSize)
      let entries ← volume.entriesIn parent size data
      let more ← volume.entriesAt parent others
      return entries ++ more

/-- The entries recorded for a directory, in recorded order. -/
def entriesFor (volume : Volume σ) (parent : Entry) : Access σ (List Entry) :=
  match parent.record.data with
  | .embedded data => volume.entriesIn parent data.length data
  | recorded => volume.entriesAt parent recorded.allocations

/-- The entries of a directory in recorded order, without nameless records and the way back to
the parent. Entries marked deleted or hidden are among them.
-/
def readDirectory (volume : Volume σ) (parent : Entry) : Access σ (List Entry) := do
  if !parent.isDirectory then throw (.misused (.notADirectory parent.name))
  else
    let entries ← Access.blaming .directory (volume.entriesFor parent)
    volume.source.tell (.directoryRead entries.length parent.path)
    return entries

/-- The contents of a file, in the order in which its pieces are recorded. -/
def contentsOf (volume : Volume σ) (entry : Entry) : Contents σ :=
  match entry.record.data with
  | .embedded data => .embedded data
  | recorded =>
      .recorded volume.source
        (recorded.allocations.map fun (block, length) => ⟨volume.offsetOf block, length⟩)

/-- A stream over the contents of a file. -/
def openFile (volume : Volume σ) (entry : Entry) : Except Failure (FileStream σ) :=
  if entry.isDirectory then .error (.misused (.notAFile entry.name))
  else .ok { contents := volume.contentsOf entry }

/-- The parts of a path between slashes that are not empty. -/
def components (path : String) : List String :=
  ((path.toList.splitOn '/').filter (!·.isEmpty)).map String.ofList

/-- (follow path entry names) follows names from an entry, taking the first match of each. -/
def follow (volume : Volume σ) (path : String) (entry : Entry) : List String → Access σ Entry
  | [] => pure entry
  | name :: others => do
      if !entry.isDirectory then throw (.misused (.notADirectory entry.name))
      else
        let entries ← volume.readDirectory entry
        match entries.find? (·.name == name) with
        | some next => volume.follow path next others
        | none => throw (.misused (.noSuchPath path))

/-- The entry at a path from the root. Empty parts of the path are passed over. -/
def lookup (volume : Volume σ) (path : String) : Access σ Entry := do
  let root ← volume.root
  volume.follow path root (components path)

end Volume

end DiscVolume
