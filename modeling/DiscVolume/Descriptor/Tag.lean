import DiscVolume.Checksum
import DiscVolume.Cursor
import DiscVolume.Descriptor.Kind

/-! The tag that starts every descriptor (ECMA-167, Part 3, 7.2). It names the kind of the
descriptor and protects itself by a byte sum and the body that follows it by a check value.
-/

namespace DiscVolume

structure Tag where
  identifier : UInt16
  version : UInt16
  checksum : UInt8
  serialNumber : UInt16
  crc : UInt16
  crcLength : UInt16
  location : UInt32
  deriving DecidableEq, Repr

namespace Tag

/-- The number of bytes of a tag. -/
def size : Nat := 16

/-- A tag, accepted when its reserved byte is zero, its sum is right, its version is known and
the bytes that follow have the recorded check value. The body itself is not passed over.
-/
def decode : Decoder Tag := do
  let raw ← Decoder.peek size
  let identifier ← Decoder.uint16
  let version ← Decoder.uint16
  let checksum ← Decoder.uint8
  let reserved ← Decoder.uint8
  let serialNumber ← Decoder.uint16
  let crc ← Decoder.uint16
  let crcLength ← Decoder.uint16
  let location ← Decoder.uint32
  Decoder.demand (reserved = 0) .tagReserved
  Decoder.demand (TagChecksum.ofTag raw = checksum) .tagChecksum
  Decoder.demand (version = 2 || version = 3) .tagVersion
  let body ← Decoder.peek crcLength.toNat
  Decoder.demand (crc = Crc16.ofBytes body) .tagCrc
  return { identifier, version, checksum, serialNumber, crc, crcLength, location }

/-- Reads a tag into a place that may hold one already; a place is filled only once. -/
def decodeOnce : Option Tag → Decoder Tag
  | some _ => throw (.internal .tagReadTwice)
  | none => decode

/-- The tag of a descriptor of a known kind. -/
def expect (kind : DescriptorKind) : Decoder Tag := do
  let tag ← decode
  Decoder.demand (tag.identifier = kind.tag) (.tagMismatch kind.tagNumber tag.identifier.toNat)
  return tag

instance : Decoder.Progressing decode := by unfold decode; infer_instance

instance (kind : DescriptorKind) : Decoder.Progressing (expect kind) := by
  unfold expect; infer_instance

end Tag

end DiscVolume
