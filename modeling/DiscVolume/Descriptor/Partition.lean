import DiscVolume.Cursor.Fields
import DiscVolume.Descriptor.Entity
import DiscVolume.Descriptor.Extent
import DiscVolume.Descriptor.Tag
import DiscVolume.Sector

/-! The descriptors of partitions and of the logical volume laid over them (ECMA-167, Part 3,
10.5 to 10.8 and 10.10).
-/

namespace DiscVolume

open Decoder

/-- The size and location of a partition. Block numbers of the file structure count from its
first sector.
-/
structure Partition where
  tag : Tag
  sequenceNumber : UInt32
  flags : UInt16
  number : UInt16
  contents : EntityId
  contentsUse : Bytes
  accessType : UInt32
  startLocation : UInt32
  length : UInt32
  implementation : EntityId
  implementationUse : Bytes
  deriving DecidableEq, Repr

namespace Partition

def decode : Decoder Partition := do
  let tag ← Tag.expect .partition
  require 8
  let sequenceNumber ← uint32
  let flags ← uint16
  let number ← uint16
  let contents ← EntityId.decode
  let contentsUse ← take 128
  require 12
  let accessType ← uint32
  let startLocation ← uint32
  let length ← uint32
  let implementation ← EntityId.decode
  let implementationUse ← take 128
  skip 156
  return {
    tag, sequenceNumber, flags, number, contents, contentsUse, accessType, startLocation,
    length, implementation, implementationUse
  }

instance : Progressing decode := by unfold decode; infer_instance

end Partition

/-- A map from a partition of the logical volume to one of a volume, of the only form that is
understood.
-/
structure PartitionMap where
  type : UInt8
  length : UInt8
  volumeNumber : UInt16
  partitionNumber : UInt16
  deriving DecidableEq, Repr

namespace PartitionMap

/-- The form of map that names a volume and a partition. -/
def plainType : UInt8 := 1

/-- The recorded length of such a map. -/
def plainLength : UInt8 := 6

def decode : Decoder PartitionMap := do
  let type ← uint8
  demand (type = plainType) (.partitionMapType type)
  let length ← uint8
  demand (length = plainLength) (.partitionMapLength length)
  require 4
  let volumeNumber ← uint16
  let partitionNumber ← uint16
  return { type, length, volumeNumber, partitionNumber }

instance : Advancing decode := by unfold decode; infer_instance

end PartitionMap

/-- The identity of the logical volume and the partitions it is made of. -/
structure LogicalVolume where
  tag : Tag
  sequenceNumber : UInt32
  characterSet : CharacterSet
  identifier : String
  blockSize : UInt32
  domain : EntityId
  contentsUse : LongAllocation
  mapTableLength : UInt32
  mapCount : UInt32
  implementation : EntityId
  implementationUse : Bytes
  integritySequence : Extent
  partitionMaps : List PartitionMap
  deriving DecidableEq, Repr

namespace LogicalVolume

def decode : Decoder LogicalVolume := do
  let tag ← Tag.expect .logicalVolume
  let sequenceNumber ← uint32
  let characterSet ← CharacterSet.decode
  let identifier ← dstring 128
  let blockSize ← uint32
  demand (blockSize.toNat = sectorSize) (.blockSize sectorSize)
  let domain ← EntityId.decode
  let contentsUse ← LongAllocation.decode
  require 8
  let mapTableLength ← uint32
  let mapCount ← uint32
  let implementation ← EntityId.decode
  let implementationUse ← take 128
  let integritySequence ← Extent.decode
  let partitionMaps ← times PartitionMap.decode mapCount.toNat
  return {
    tag, sequenceNumber, characterSet, identifier, blockSize, domain, contentsUse,
    mapTableLength, mapCount, implementation, implementationUse, integritySequence,
    partitionMaps
  }

instance : Progressing decode := by unfold decode; infer_instance

end LogicalVolume

/-- The space of a volume that is not part of any partition. -/
structure UnallocatedSpace where
  tag : Tag
  sequenceNumber : UInt32
  extentCount : UInt32
  extents : List Extent
  deriving DecidableEq, Repr

namespace UnallocatedSpace

def decode : Decoder UnallocatedSpace := do
  let tag ← Tag.expect .unallocatedSpace
  require 8
  let sequenceNumber ← uint32
  let extentCount ← uint32
  let extents ← times Extent.decode extentCount.toNat
  return { tag, sequenceNumber, extentCount, extents }

instance : Progressing decode := by unfold decode; infer_instance

end UnallocatedSpace

/-- Whether the logical volume was left in a consistent state, and how much of it is free. -/
structure LogicalVolumeIntegrity where
  tag : Tag
  recordingTime : Option Calendar.CivilTime
  type : UInt32
  nextExtent : Extent
  /-- The next unique identifier, from the logical volume header. -/
  uniqueId : UInt64
  partitionCount : UInt32
  implementationUseLength : UInt32
  freeSpace : List UInt32
  sizes : List UInt32
  implementationUse : ImplementationUse
  deriving DecidableEq, Repr

namespace LogicalVolumeIntegrity

/-- The logical volume header, of which only the next unique identifier is used (ECMA-167,
Part 4, 14.15).
-/
def header : Decoder UInt64 := do
  let uniqueId ← uint64
  skip 24
  return uniqueId

instance : Advancing header := by unfold header; infer_instance

def decode : Decoder LogicalVolumeIntegrity := do
  let tag ← Tag.expect .logicalVolumeIntegrity
  let recordingTime ← timestamp
  let type ← uint32
  let nextExtent ← Extent.decode
  let uniqueId ← header
  require 8
  let partitionCount ← uint32
  let implementationUseLength ← uint32
  let freeSpace ← times uint32 partitionCount.toNat
  let sizes ← times uint32 partitionCount.toNat
  let implementationUse ← ImplementationUse.decode implementationUseLength.toNat
  return {
    tag, recordingTime, type, nextExtent, uniqueId, partitionCount, implementationUseLength,
    freeSpace, sizes, implementationUse
  }

instance : Progressing decode := by unfold decode; infer_instance

end LogicalVolumeIntegrity

end DiscVolume
