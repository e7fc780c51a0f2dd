import DiscVolume.Cursor.Fields
import DiscVolume.Descriptor.Entity
import DiscVolume.Descriptor.Extent
import DiscVolume.Descriptor.Tag
import DiscVolume.Permissions
import DiscVolume.Sector

/-! File identifier descriptors (ECMA-167, Part 4, 14.4): the records of a directory, each of
which names an entry and says where its file entry is. Records are padded to a multiple of four
bytes.
-/

namespace DiscVolume

open Decoder

structure FileIdentifier where
  tag : Tag
  version : UInt16
  characteristics : UInt8
  nameLength : UInt8
  icb : LongAllocation
  implementationUseLength : UInt16
  implementationUse : Bytes
  name : String
  deriving DecidableEq, Repr

namespace FileIdentifier

def decode : Decoder FileIdentifier := do
  let start ← position
  let tag ← Tag.expect .fileIdentifier
  require 4
  let version ← uint16
  let characteristics ← uint8
  let nameLength ← uint8
  let icb ← LongAllocation.decode
  let implementationUseLength ← uint16
  let implementationUse ← take implementationUseLength.toNat
  let name ← dcharacters nameLength.toNat
  let stop ← position
  skip (padding (stop - start)).toNat
  return {
    tag, version, characteristics, nameLength, icb, implementationUseLength, implementationUse,
    name
  }

instance : Progressing decode := by unfold decode; infer_instance

/-- Whether all characteristics of a mask are set. -/
def hasCharacteristics (record : FileIdentifier) (mask : Int) : Bool :=
  Bits.and record.characteristics.toNat mask == mask

def isHidden (record : FileIdentifier) : Bool := record.hasCharacteristics 0x01
def isDirectory (record : FileIdentifier) : Bool := record.hasCharacteristics 0x02
def isDeleted (record : FileIdentifier) : Bool := record.hasCharacteristics 0x04
def isParent (record : FileIdentifier) : Bool := record.hasCharacteristics 0x08
def isMetadata (record : FileIdentifier) : Bool := record.hasCharacteristics 0x10

end FileIdentifier

end DiscVolume
