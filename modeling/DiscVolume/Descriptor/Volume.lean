import DiscVolume.Cursor.Fields
import DiscVolume.Descriptor.Entity
import DiscVolume.Descriptor.Extent
import DiscVolume.Descriptor.Tag

/-! The descriptors that identify a volume and lead to its volume descriptor sequences
(ECMA-167, Part 3, 10.1 to 10.4 and 10.9).
-/

namespace DiscVolume

open Decoder

/-- Identifies the volume and the volume set it belongs to. -/
structure PrimaryVolume where
  tag : Tag
  sequenceNumber : UInt32
  descriptorNumber : UInt32
  volumeIdentifier : String
  volumeNumber : UInt16
  maximumVolumeNumber : UInt16
  interchangeLevel : UInt16
  maximumInterchangeLevel : UInt16
  characterSetList : UInt32
  maximumCharacterSetList : UInt32
  volumeSetIdentifier : String
  descriptorCharacterSet : CharacterSet
  explanatoryCharacterSet : CharacterSet
  volumeAbstract : Extent
  copyrightNotice : Extent
  application : EntityId
  recordingTime : Option Calendar.CivilTime
  implementation : EntityId
  implementationUse : Bytes
  predecessorLocation : UInt32
  flags : UInt16
  deriving DecidableEq, Repr

namespace PrimaryVolume

def decode : Decoder PrimaryVolume := do
  let tag ← Tag.expect .primaryVolume
  let sequenceNumber ← uint32
  let descriptorNumber ← uint32
  let volumeIdentifier ← dstring 32
  require 16
  let volumeNumber ← uint16
  let maximumVolumeNumber ← uint16
  let interchangeLevel ← uint16
  let maximumInterchangeLevel ← uint16
  let characterSetList ← uint32
  let maximumCharacterSetList ← uint32
  let volumeSetIdentifier ← dstring 128
  let descriptorCharacterSet ← CharacterSet.decode
  let explanatoryCharacterSet ← CharacterSet.decode
  let volumeAbstract ← Extent.decode
  let copyrightNotice ← Extent.decode
  let application ← EntityId.decode
  let recordingTime ← timestamp
  let implementation ← EntityId.decode
  let implementationUse ← take 64
  let predecessorLocation ← uint32
  let flags ← uint16
  skip 22
  return {
    tag, sequenceNumber, descriptorNumber, volumeIdentifier, volumeNumber, maximumVolumeNumber,
    interchangeLevel, maximumInterchangeLevel, characterSetList, maximumCharacterSetList,
    volumeSetIdentifier, descriptorCharacterSet, explanatoryCharacterSet, volumeAbstract,
    copyrightNotice, application, recordingTime, implementation, implementationUse,
    predecessorLocation, flags
  }

instance : Progressing decode := by unfold decode; infer_instance

end PrimaryVolume

/-- Says where the main and the reserve volume descriptor sequence are. -/
structure AnchorPointer where
  tag : Tag
  mainSequence : Extent
  reserveSequence : Extent
  deriving DecidableEq, Repr

namespace AnchorPointer

def decode : Decoder AnchorPointer := do
  let tag ← Tag.expect .anchorPointer
  let mainSequence ← Extent.decode
  let reserveSequence ← Extent.decode
  skip 480
  return { tag, mainSequence, reserveSequence }

instance : Progressing decode := by unfold decode; infer_instance

end AnchorPointer

/-- Says where a volume descriptor sequence goes on. -/
structure VolumePointer where
  tag : Tag
  sequenceNumber : UInt32
  nextSequence : Extent
  deriving DecidableEq, Repr

namespace VolumePointer

def decode : Decoder VolumePointer := do
  let tag ← Tag.expect .volumePointer
  let sequenceNumber ← uint32
  let nextSequence ← Extent.decode
  skip 484
  return { tag, sequenceNumber, nextSequence }

instance : Progressing decode := by unfold decode; infer_instance

end VolumePointer

/-- What an implementation records about a logical volume (UDF 2.60, 2.2.7.2). -/
structure LogicalVolumeInformation where
  characterSet : CharacterSet
  logicalVolumeIdentifier : String
  firstLine : String
  secondLine : String
  thirdLine : String
  implementation : EntityId
  implementationUse : Bytes
  deriving DecidableEq, Repr

namespace LogicalVolumeInformation

def decode : Decoder LogicalVolumeInformation := do
  let characterSet ← CharacterSet.decode
  let logicalVolumeIdentifier ← dstring 128
  let firstLine ← dstring 36
  let secondLine ← dstring 36
  let thirdLine ← dstring 36
  let implementation ← EntityId.decode
  let implementationUse ← take 128
  return {
    characterSet, logicalVolumeIdentifier, firstLine, secondLine, thirdLine, implementation,
    implementationUse
  }

instance : Advancing decode := by unfold decode; infer_instance

end LogicalVolumeInformation

/-- Identifies an implementation and holds what it records about a logical volume. -/
structure ImplementationUseVolume where
  tag : Tag
  sequenceNumber : UInt32
  implementation : EntityId
  information : LogicalVolumeInformation
  deriving DecidableEq, Repr

namespace ImplementationUseVolume

def decode : Decoder ImplementationUseVolume := do
  let tag ← Tag.expect .implementationUseVolume
  let sequenceNumber ← uint32
  let implementation ← EntityId.decode
  let information ← LogicalVolumeInformation.decode
  return { tag, sequenceNumber, implementation, information }

instance : Progressing decode := by unfold decode; infer_instance

end ImplementationUseVolume

/-- Ends a volume descriptor sequence. -/
structure Terminating where
  tag : Tag
  deriving DecidableEq, Repr

namespace Terminating

def decode : Decoder Terminating := do
  let tag ← Tag.expect .terminating
  skip 496
  return { tag }

instance : Progressing decode := by unfold decode; infer_instance

end Terminating

end DiscVolume
