import DiscVolume.Cursor.Fields
import DiscVolume.Descriptor.Entity
import DiscVolume.Descriptor.Extent
import DiscVolume.Descriptor.Tag

/-! The file set descriptor (ECMA-167, Part 4, 14.1), which leads to the root directory. -/

namespace DiscVolume

open Decoder

structure FileSet where
  tag : Tag
  recordingTime : Option Calendar.CivilTime
  interchangeLevel : UInt16
  maximumInterchangeLevel : UInt16
  characterSetList : UInt32
  maximumCharacterSetList : UInt32
  number : UInt32
  descriptorNumber : UInt32
  logicalVolumeCharacterSet : CharacterSet
  logicalVolumeIdentifier : String
  characterSet : CharacterSet
  identifier : String
  copyrightFile : String
  abstractFile : String
  rootDirectory : LongAllocation
  domain : EntityId
  nextExtent : LongAllocation
  streamDirectory : LongAllocation
  deriving DecidableEq, Repr

namespace FileSet

def decode : Decoder FileSet := do
  let tag ← Tag.expect .fileSet
  let recordingTime ← timestamp
  require 20
  let interchangeLevel ← uint16
  let maximumInterchangeLevel ← uint16
  let characterSetList ← uint32
  let maximumCharacterSetList ← uint32
  let number ← uint32
  let descriptorNumber ← uint32
  let logicalVolumeCharacterSet ← CharacterSet.decode
  let logicalVolumeIdentifier ← dstring 128
  let characterSet ← CharacterSet.decode
  let identifier ← dstring 32
  let copyrightFile ← dstring 32
  let abstractFile ← dstring 32
  let rootDirectory ← LongAllocation.decode
  let domain ← EntityId.decode
  let nextExtent ← LongAllocation.decode
  let streamDirectory ← LongAllocation.decode
  skip 32
  return {
    tag, recordingTime, interchangeLevel, maximumInterchangeLevel, characterSetList,
    maximumCharacterSetList, number, descriptorNumber, logicalVolumeCharacterSet,
    logicalVolumeIdentifier, characterSet, identifier, copyrightFile, abstractFile,
    rootDirectory, domain, nextExtent, streamDirectory
  }

instance : Progressing decode := by unfold decode; infer_instance

end FileSet

end DiscVolume
