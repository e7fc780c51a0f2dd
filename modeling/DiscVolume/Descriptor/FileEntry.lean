import DiscVolume.Cursor.Fields
import DiscVolume.Descriptor.Entity
import DiscVolume.Descriptor.Extent
import DiscVolume.Descriptor.Tag
import DiscVolume.Permissions

/-! File entries (ECMA-167, Part 4, 14.6 and 14.9): the attributes of a file or directory and
where its data is recorded, as short or long allocations or within the entry itself.
-/

namespace DiscVolume

open Decoder

/-- How the records of an information control block are arranged and what they describe. -/
structure IcbTag where
  priorDirectEntries : UInt32
  strategyType : UInt16
  strategyParameter : UInt16
  maximumEntries : UInt16
  fileType : UInt8
  parent : BlockAddress
  flags : UInt16
  deriving DecidableEq, Repr

namespace IcbTag

/-- The file type of directories. -/
def directoryType : UInt8 := 4

/-- The form in which data is recorded, bits 0 to 2 of the flags. -/
def allocationForm (icb : IcbTag) : Nat := icb.flags.toNat % 8

def decode : Decoder IcbTag := do
  require 12
  let priorDirectEntries ← uint32
  let strategyType ← uint16
  let strategyParameter ← uint16
  let maximumEntries ← uint16
  skip 1
  let fileType ← uint8
  let parent ← BlockAddress.decode
  let flags ← uint16
  return {
    priorDirectEntries, strategyType, strategyParameter, maximumEntries, fileType, parent, flags
  }

instance : Advancing decode := by unfold decode; infer_instance

end IcbTag

/-- Where the data of a file is recorded. -/
inductive FileData where
  | short (allocations : List ShortAllocation)
  | long (allocations : List LongAllocation)
  | embedded (data : Bytes)
  deriving DecidableEq, Repr

namespace FileData

/-- (decode form length) reads allocations of a form that fill a length; a part of an
allocation at the end is left out.
-/
def decode (form length : Nat) : Decoder FileData :=
  match form with
  | 0 => .short <$> times ShortAllocation.decode (length / 8)
  | 1 => .long <$> times LongAllocation.decode (length / 16)
  | 3 => .embedded <$> take length
  | other => throw (.malformed (.allocationType other))

instance (form length : Nat) : Advancing (decode form length) := by
  unfold decode
  split <;> infer_instance

/-- The block number and the number of bytes of each allocation, in recorded order. -/
def allocations : FileData → List (Nat × Nat)
  | .short allocations => allocations.map fun a => (a.block.toNat, a.length.bytes.toNat)
  | .long allocations => allocations.map fun a => (a.block.toNat, a.length.bytes.toNat)
  | .embedded _ => []

end FileData

structure FileEntry where
  tag : Tag
  icb : IcbTag
  userId : UInt32
  groupId : UInt32
  permissions : UInt32
  linkCount : UInt16
  recordFormat : UInt8
  recordAttributes : UInt8
  recordLength : UInt32
  informationLength : UInt64
  blocksRecorded : UInt64
  accessTime : Option Calendar.CivilTime
  modificationTime : Option Calendar.CivilTime
  attributeTime : Option Calendar.CivilTime
  checkpoint : UInt32
  extendedAttributeIcb : LongAllocation
  implementation : EntityId
  uniqueId : UInt64
  extendedAttributesLength : UInt32
  allocationLength : UInt32
  extendedAttributes : Bytes
  data : FileData
  deriving DecidableEq, Repr

namespace FileEntry

def decode : Decoder FileEntry := do
  let tag ← Tag.expect .fileEntry
  let icb ← IcbTag.decode
  require 36
  let userId ← uint32
  let groupId ← uint32
  let permissions ← uint32
  let linkCount ← uint16
  let recordFormat ← uint8
  let recordAttributes ← uint8
  let recordLength ← uint32
  let informationLength ← uint64
  let blocksRecorded ← uint64
  let accessTime ← timestamp
  let modificationTime ← timestamp
  let attributeTime ← timestamp
  let checkpoint ← uint32
  let extendedAttributeIcb ← LongAllocation.decode
  let implementation ← EntityId.decode
  require 16
  let uniqueId ← uint64
  let extendedAttributesLength ← uint32
  let allocationLength ← uint32
  let extendedAttributes ← take extendedAttributesLength.toNat
  let data ← FileData.decode icb.allocationForm allocationLength.toNat
  return {
    tag, icb, userId, groupId, permissions, linkCount, recordFormat, recordAttributes,
    recordLength, informationLength, blocksRecorded, accessTime, modificationTime,
    attributeTime, checkpoint, extendedAttributeIcb, implementation, uniqueId,
    extendedAttributesLength, allocationLength, extendedAttributes, data
  }

def isDirectory (entry : FileEntry) : Bool := entry.icb.fileType = IcbTag.directoryType

/-- The recorded permissions. -/
def mode (entry : FileEntry) : Permissions := ⟨entry.permissions.toNat⟩

set_option synthInstance.maxSize 512 in
instance : Progressing decode := by unfold decode; infer_instance

end FileEntry

end DiscVolume
