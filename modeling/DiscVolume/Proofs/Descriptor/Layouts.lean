import DiscVolume.Descriptor.FileSet
import DiscVolume.Descriptor.Partition
import DiscVolume.Descriptor.Volume
import DiscVolume.Proofs.Descriptor.Fields
import DiscVolume.Proofs.Descriptor.Sealing

/-! How the descriptors of a volume are recorded behind their tags, and that each kind is read
back. Reserved areas are open, and so are the parts of fields that nothing is recorded in.
-/

namespace DiscVolume

open Decoder

variable {tag : Tag} {background : Nat → UInt8}

/-- A time is either not recorded or valid. -/
def IsRecordableTime (time : Option Calendar.CivilTime) : Prop := ∀ civil ∈ time, civil.IsValid

namespace PrimaryVolume

/-- The texts fit, the time is recordable and byte fields have their sizes. -/
structure IsRecordable (descriptor : PrimaryVolume) : Prop where
  volumeIdentifier : Template.FitsDstring 32 descriptor.volumeIdentifier
  volumeSetIdentifier : Template.FitsDstring 128 descriptor.volumeSetIdentifier
  descriptorCharacterSet : descriptor.descriptorCharacterSet.IsRecordable
  explanatoryCharacterSet : descriptor.explanatoryCharacterSet.IsRecordable
  application : descriptor.application.IsRecordable
  recordingTime : IsRecordableTime descriptor.recordingTime
  implementation : descriptor.implementation.IsRecordable
  implementationUse : descriptor.implementationUse.length = 64

def layout (descriptor : PrimaryVolume) : Template :=
  .sequence [.uint32 descriptor.sequenceNumber, .uint32 descriptor.descriptorNumber,
    .dstring 32 descriptor.volumeIdentifier, .uint16 descriptor.volumeNumber,
    .uint16 descriptor.maximumVolumeNumber, .uint16 descriptor.interchangeLevel,
    .uint16 descriptor.maximumInterchangeLevel, .uint32 descriptor.characterSetList,
    .uint32 descriptor.maximumCharacterSetList, .dstring 128 descriptor.volumeSetIdentifier,
    descriptor.descriptorCharacterSet.layout, descriptor.explanatoryCharacterSet.layout,
    descriptor.volumeAbstract.layout, descriptor.copyrightNotice.layout,
    descriptor.application.layout, .timestamp descriptor.recordingTime,
    descriptor.implementation.layout, .recorded descriptor.implementationUse,
    .uint32 descriptor.predecessorLocation, .uint16 descriptor.flags, .blank 22]

theorem IsRecordable.reads {descriptor : PrimaryVolume} (recordable : descriptor.IsRecordable)
    (heads : tag.Heads .primaryVolume (descriptor.layout.filled background)) (offset : Nat)
    : Reads decode offset (tag.bytes ++ descriptor.layout.filled background)
        { descriptor with tag } := by
  refine heads.reads ?_ offset
  refine (Recovers.uint32 _).bind ((Recovers.uint32 _).bind ?_)
  refine (Recovers.dstring recordable.volumeIdentifier (by decide)).bind ?_
  refine .require (by simp +arith) ?_
  refine (Recovers.uint16 _).bind ((Recovers.uint16 _).bind ?_)
  refine (Recovers.uint16 _).bind ((Recovers.uint16 _).bind ?_)
  refine (Recovers.uint32 _).bind ((Recovers.uint32 _).bind ?_)
  refine (Recovers.dstring recordable.volumeSetIdentifier (by decide)).bind ?_
  refine recordable.descriptorCharacterSet.recovers.bind ?_
  refine recordable.explanatoryCharacterSet.recovers.bind ?_
  refine (Extent.recovers _).bind ((Extent.recovers _).bind ?_)
  refine recordable.application.recovers.bind ?_
  refine (Recovers.timestamp recordable.recordingTime).bind ?_
  refine recordable.implementation.recovers.bind ?_
  refine (Recovers.take recordable.implementationUse).bind ?_
  exact (Recovers.uint32 _).bind ((Recovers.uint16 _).bind ((Recovers.skip 22).bind (.pure _)))

end PrimaryVolume

namespace AnchorPointer

def layout (descriptor : AnchorPointer) : Template :=
  .sequence [descriptor.mainSequence.layout, descriptor.reserveSequence.layout, .blank 480]

theorem reads {descriptor : AnchorPointer}
    (heads : tag.Heads .anchorPointer (descriptor.layout.filled background)) (offset : Nat)
    : Reads decode offset (tag.bytes ++ descriptor.layout.filled background)
        { descriptor with tag } := by
  refine heads.reads ?_ offset
  refine (Extent.recovers _).bind ((Extent.recovers _).bind ?_)
  exact (Recovers.skip 480).bind (.pure _)

end AnchorPointer

namespace VolumePointer

def layout (descriptor : VolumePointer) : Template :=
  .sequence [.uint32 descriptor.sequenceNumber, descriptor.nextSequence.layout, .blank 484]

theorem reads {descriptor : VolumePointer}
    (heads : tag.Heads .volumePointer (descriptor.layout.filled background)) (offset : Nat)
    : Reads decode offset (tag.bytes ++ descriptor.layout.filled background)
        { descriptor with tag } := by
  refine heads.reads ?_ offset
  refine (Recovers.uint32 _).bind ((Extent.recovers _).bind ?_)
  exact (Recovers.skip 484).bind (.pure _)

end VolumePointer

namespace LogicalVolumeInformation

/-- The texts fit and byte fields have their sizes. -/
structure IsRecordable (information : LogicalVolumeInformation) : Prop where
  characterSet : information.characterSet.IsRecordable
  logicalVolumeIdentifier : Template.FitsDstring 128 information.logicalVolumeIdentifier
  firstLine : Template.FitsDstring 36 information.firstLine
  secondLine : Template.FitsDstring 36 information.secondLine
  thirdLine : Template.FitsDstring 36 information.thirdLine
  implementation : information.implementation.IsRecordable
  implementationUse : information.implementationUse.length = 128

def layout (information : LogicalVolumeInformation) : Template :=
  .sequence [information.characterSet.layout, .dstring 128 information.logicalVolumeIdentifier,
    .dstring 36 information.firstLine, .dstring 36 information.secondLine,
    .dstring 36 information.thirdLine, information.implementation.layout,
    .recorded information.implementationUse]

theorem IsRecordable.recovers {information : LogicalVolumeInformation}
    (recordable : information.IsRecordable)
    : Recovers decode information.layout information := by
  refine recordable.characterSet.recovers.bind ?_
  refine (Recovers.dstring recordable.logicalVolumeIdentifier (by decide)).bind ?_
  refine (Recovers.dstring recordable.firstLine (by decide)).bind ?_
  refine (Recovers.dstring recordable.secondLine (by decide)).bind ?_
  refine (Recovers.dstring recordable.thirdLine (by decide)).bind ?_
  refine recordable.implementation.recovers.bind ?_
  exact (Recovers.take recordable.implementationUse).bind (.pure _)

end LogicalVolumeInformation

namespace ImplementationUseVolume

structure IsRecordable (descriptor : ImplementationUseVolume) : Prop where
  implementation : descriptor.implementation.IsRecordable
  information : descriptor.information.IsRecordable

def layout (descriptor : ImplementationUseVolume) : Template :=
  .sequence [.uint32 descriptor.sequenceNumber, descriptor.implementation.layout,
    descriptor.information.layout]

theorem IsRecordable.reads {descriptor : ImplementationUseVolume}
    (recordable : descriptor.IsRecordable)
    (heads : tag.Heads .implementationUseVolume (descriptor.layout.filled background))
    (offset : Nat)
    : Reads decode offset (tag.bytes ++ descriptor.layout.filled background)
        { descriptor with tag } := by
  refine heads.reads ?_ offset
  refine (Recovers.uint32 _).bind (recordable.implementation.recovers.bind ?_)
  exact recordable.information.recovers.bind (.pure _)

end ImplementationUseVolume

namespace Partition

/-- Byte fields have their sizes. -/
structure IsRecordable (descriptor : Partition) : Prop where
  contents : descriptor.contents.IsRecordable
  contentsUse : descriptor.contentsUse.length = 128
  implementation : descriptor.implementation.IsRecordable
  implementationUse : descriptor.implementationUse.length = 128

def layout (descriptor : Partition) : Template :=
  .sequence [.uint32 descriptor.sequenceNumber, .uint16 descriptor.flags,
    .uint16 descriptor.number, descriptor.contents.layout, .recorded descriptor.contentsUse,
    .uint32 descriptor.accessType, .uint32 descriptor.startLocation, .uint32 descriptor.length,
    descriptor.implementation.layout, .recorded descriptor.implementationUse, .blank 156]

theorem IsRecordable.reads {descriptor : Partition} (recordable : descriptor.IsRecordable)
    (heads : tag.Heads .partition (descriptor.layout.filled background)) (offset : Nat)
    : Reads decode offset (tag.bytes ++ descriptor.layout.filled background)
        { descriptor with tag } := by
  refine heads.reads ?_ offset
  refine .require (by simp +arith [layout]) ?_
  refine (Recovers.uint32 _).bind ((Recovers.uint16 _).bind ((Recovers.uint16 _).bind ?_))
  refine recordable.contents.recovers.bind ?_
  refine (Recovers.take recordable.contentsUse).bind ?_
  refine .require (by simp +arith) ?_
  refine (Recovers.uint32 _).bind ((Recovers.uint32 _).bind ((Recovers.uint32 _).bind ?_))
  refine recordable.implementation.recovers.bind ?_
  refine (Recovers.take recordable.implementationUse).bind ?_
  exact (Recovers.skip 156).bind (.pure _)

end Partition

namespace PartitionMap

/-- A map is of the one form that is understood. -/
structure IsRecordable (map : PartitionMap) : Prop where
  type : map.type = plainType
  length : map.length = plainLength

def layout (map : PartitionMap) : Template :=
  .sequence [.uint8 map.type, .uint8 map.length, .uint16 map.volumeNumber,
    .uint16 map.partitionNumber]

theorem IsRecordable.recovers {map : PartitionMap} (recordable : map.IsRecordable)
    : Recovers decode map.layout map := by
  refine (Recovers.uint8 _).bind (.demand (decide_eq_true recordable.type) ?_)
  refine (Recovers.uint8 _).bind (.demand (decide_eq_true recordable.length) ?_)
  refine .require (by simp) ?_
  exact (Recovers.uint16 _).bind ((Recovers.uint16 _).bind (.pure _))

end PartitionMap

namespace LogicalVolume

/-- Blocks are sectors, every map is of the form that is understood, and they are as many as
recorded. Texts fit and byte fields have their sizes.
-/
structure IsRecordable (descriptor : LogicalVolume) : Prop where
  characterSet : descriptor.characterSet.IsRecordable
  identifier : Template.FitsDstring 128 descriptor.identifier
  blockSize : descriptor.blockSize.toNat = sectorSize
  domain : descriptor.domain.IsRecordable
  implementation : descriptor.implementation.IsRecordable
  implementationUse : descriptor.implementationUse.length = 128
  partitionMaps : ∀ map ∈ descriptor.partitionMaps, map.IsRecordable
  mapCount : descriptor.partitionMaps.length = descriptor.mapCount.toNat

def layout (descriptor : LogicalVolume) : Template :=
  .sequence [.uint32 descriptor.sequenceNumber, descriptor.characterSet.layout,
    .dstring 128 descriptor.identifier, .uint32 descriptor.blockSize, descriptor.domain.layout,
    descriptor.contentsUse.layout, .uint32 descriptor.mapTableLength,
    .uint32 descriptor.mapCount, descriptor.implementation.layout,
    .recorded descriptor.implementationUse, descriptor.integritySequence.layout,
    .sequence (descriptor.partitionMaps.map PartitionMap.layout)]

theorem IsRecordable.reads {descriptor : LogicalVolume} (recordable : descriptor.IsRecordable)
    (heads : tag.Heads .logicalVolume (descriptor.layout.filled background)) (offset : Nat)
    : Reads decode offset (tag.bytes ++ descriptor.layout.filled background)
        { descriptor with tag } := by
  refine heads.reads ?_ offset
  refine (Recovers.uint32 _).bind (recordable.characterSet.recovers.bind ?_)
  refine (Recovers.dstring recordable.identifier (by decide)).bind ?_
  refine (Recovers.uint32 _).bind (.demand (decide_eq_true recordable.blockSize) ?_)
  refine recordable.domain.recovers.bind ((LongAllocation.recovers _).bind ?_)
  refine .require (by simp +arith) ?_
  refine (Recovers.uint32 _).bind ((Recovers.uint32 _).bind ?_)
  refine recordable.implementation.recovers.bind ?_
  refine (Recovers.take recordable.implementationUse).bind ((Extent.recovers _).bind ?_)
  have maps : Recovers (times PartitionMap.decode descriptor.mapCount.toNat) _ _ :=
    .times (fun map member => (recordable.partitionMaps map member).recovers) recordable.mapCount
  exact maps.bind (.pure _)

end LogicalVolume

namespace UnallocatedSpace

/-- The extents are as many as recorded. -/
def IsRecordable (descriptor : UnallocatedSpace) : Prop :=
  descriptor.extents.length = descriptor.extentCount.toNat

def layout (descriptor : UnallocatedSpace) : Template :=
  .sequence [.uint32 descriptor.sequenceNumber, .uint32 descriptor.extentCount,
    .sequence (descriptor.extents.map Extent.layout)]

theorem IsRecordable.reads {descriptor : UnallocatedSpace}
    (recordable : descriptor.IsRecordable)
    (heads : tag.Heads .unallocatedSpace (descriptor.layout.filled background)) (offset : Nat)
    : Reads decode offset (tag.bytes ++ descriptor.layout.filled background)
        { descriptor with tag } := by
  refine heads.reads ?_ offset
  refine .require (by simp +arith [layout]) ?_
  refine (Recovers.uint32 _).bind ((Recovers.uint32 _).bind ?_)
  have extents : Recovers (times Extent.decode descriptor.extentCount.toNat) _ _ :=
    .times (fun extent _ => extent.recovers) recordable
  exact extents.bind (.pure _)

end UnallocatedSpace

namespace Terminating

def layout : Template := .sequence [.blank 496]

theorem reads (heads : tag.Heads .terminating (layout.filled background)) (offset : Nat)
    : Reads decode offset (tag.bytes ++ layout.filled background) { tag } := by
  refine heads.reads ?_ offset
  exact (Recovers.skip 496).bind (.pure _)

end Terminating

namespace LogicalVolumeIntegrity

/-- The time is recordable, both tables have an entry for each partition, and the area for the use
of implementations has its recorded length.
-/
structure IsRecordable (descriptor : LogicalVolumeIntegrity) : Prop where
  recordingTime : IsRecordableTime descriptor.recordingTime
  freeSpace : descriptor.freeSpace.length = descriptor.partitionCount.toNat
  sizes : descriptor.sizes.length = descriptor.partitionCount.toNat
  implementationUse :
    descriptor.implementationUse.IsRecordable descriptor.implementationUseLength.toNat

/-- The logical volume header. -/
def headerLayout (uniqueId : UInt64) : Template := .sequence [.uint64 uniqueId, .blank 24]

theorem recovers_header (uniqueId : UInt64)
    : Recovers header (headerLayout uniqueId) uniqueId :=
  (Recovers.uint64 _).bind ((Recovers.skip 24).bind (.pure _))

def layout (descriptor : LogicalVolumeIntegrity) : Template :=
  .sequence [.timestamp descriptor.recordingTime, .uint32 descriptor.type,
    descriptor.nextExtent.layout, headerLayout descriptor.uniqueId,
    .uint32 descriptor.partitionCount, .uint32 descriptor.implementationUseLength,
    .sequence (descriptor.freeSpace.map .uint32), .sequence (descriptor.sizes.map .uint32),
    descriptor.implementationUse.layout]

theorem IsRecordable.reads {descriptor : LogicalVolumeIntegrity}
    (recordable : descriptor.IsRecordable)
    (heads : tag.Heads .logicalVolumeIntegrity (descriptor.layout.filled background))
    (offset : Nat)
    : Reads decode offset (tag.bytes ++ descriptor.layout.filled background)
        { descriptor with tag } := by
  refine heads.reads ?_ offset
  refine (Recovers.timestamp recordable.recordingTime).bind ((Recovers.uint32 _).bind ?_)
  refine (Extent.recovers _).bind ((recovers_header _).bind ?_)
  refine .require (by simp +arith) ?_
  refine (Recovers.uint32 _).bind ((Recovers.uint32 _).bind ?_)
  have freeSpace : Recovers (times uint32 descriptor.partitionCount.toNat) _ _ :=
    .times (fun size _ => Recovers.uint32 size) recordable.freeSpace
  have sizes : Recovers (times uint32 descriptor.partitionCount.toNat) _ _ :=
    .times (fun size _ => Recovers.uint32 size) recordable.sizes
  refine freeSpace.bind (sizes.bind ?_)
  exact recordable.implementationUse.recovers.bind (.pure _)

end LogicalVolumeIntegrity

namespace FileSet

/-- The texts fit, the time is recordable and byte fields have their sizes. -/
structure IsRecordable (descriptor : FileSet) : Prop where
  recordingTime : IsRecordableTime descriptor.recordingTime
  logicalVolumeCharacterSet : descriptor.logicalVolumeCharacterSet.IsRecordable
  logicalVolumeIdentifier : Template.FitsDstring 128 descriptor.logicalVolumeIdentifier
  characterSet : descriptor.characterSet.IsRecordable
  identifier : Template.FitsDstring 32 descriptor.identifier
  copyrightFile : Template.FitsDstring 32 descriptor.copyrightFile
  abstractFile : Template.FitsDstring 32 descriptor.abstractFile
  domain : descriptor.domain.IsRecordable

def layout (descriptor : FileSet) : Template :=
  .sequence [.timestamp descriptor.recordingTime, .uint16 descriptor.interchangeLevel,
    .uint16 descriptor.maximumInterchangeLevel, .uint32 descriptor.characterSetList,
    .uint32 descriptor.maximumCharacterSetList, .uint32 descriptor.number,
    .uint32 descriptor.descriptorNumber, descriptor.logicalVolumeCharacterSet.layout,
    .dstring 128 descriptor.logicalVolumeIdentifier, descriptor.characterSet.layout,
    .dstring 32 descriptor.identifier, .dstring 32 descriptor.copyrightFile,
    .dstring 32 descriptor.abstractFile, descriptor.rootDirectory.layout,
    descriptor.domain.layout, descriptor.nextExtent.layout, descriptor.streamDirectory.layout,
    .blank 32]

theorem IsRecordable.reads {descriptor : FileSet} (recordable : descriptor.IsRecordable)
    (heads : tag.Heads .fileSet (descriptor.layout.filled background)) (offset : Nat)
    : Reads decode offset (tag.bytes ++ descriptor.layout.filled background)
        { descriptor with tag } := by
  refine heads.reads ?_ offset
  refine (Recovers.timestamp recordable.recordingTime).bind ?_
  refine .require (by simp +arith) ?_
  refine (Recovers.uint16 _).bind ((Recovers.uint16 _).bind ?_)
  refine (Recovers.uint32 _).bind ((Recovers.uint32 _).bind ?_)
  refine (Recovers.uint32 _).bind ((Recovers.uint32 _).bind ?_)
  refine recordable.logicalVolumeCharacterSet.recovers.bind ?_
  refine (Recovers.dstring recordable.logicalVolumeIdentifier (by decide)).bind ?_
  refine recordable.characterSet.recovers.bind ?_
  refine (Recovers.dstring recordable.identifier (by decide)).bind ?_
  refine (Recovers.dstring recordable.copyrightFile (by decide)).bind ?_
  refine (Recovers.dstring recordable.abstractFile (by decide)).bind ?_
  refine (LongAllocation.recovers _).bind (recordable.domain.recovers.bind ?_)
  refine (LongAllocation.recovers _).bind ((LongAllocation.recovers _).bind ?_)
  exact (Recovers.skip 32).bind (.pure _)

end FileSet

end DiscVolume
