import DiscVolume.Descriptor.FileEntry
import DiscVolume.Descriptor.FileIdentifier
import DiscVolume.Descriptor.FileSet
import DiscVolume.Descriptor.Partition
import DiscVolume.Descriptor.Volume

/-! Descriptors of any kind. The tag identifier at the cursor decides how a descriptor is read. -/

namespace DiscVolume

inductive Descriptor where
  | primaryVolume (descriptor : PrimaryVolume)
  | anchorPointer (descriptor : AnchorPointer)
  | volumePointer (descriptor : VolumePointer)
  | implementationUseVolume (descriptor : ImplementationUseVolume)
  | partition (descriptor : Partition)
  | logicalVolume (descriptor : LogicalVolume)
  | unallocatedSpace (descriptor : UnallocatedSpace)
  | terminating (descriptor : Terminating)
  | logicalVolumeIntegrity (descriptor : LogicalVolumeIntegrity)
  | fileSet (descriptor : FileSet)
  | fileIdentifier (descriptor : FileIdentifier)
  | fileEntry (descriptor : FileEntry)
  deriving DecidableEq, Repr

namespace Descriptor

def kind : Descriptor → DescriptorKind
  | primaryVolume _ => .primaryVolume
  | anchorPointer _ => .anchorPointer
  | volumePointer _ => .volumePointer
  | implementationUseVolume _ => .implementationUseVolume
  | partition _ => .partition
  | logicalVolume _ => .logicalVolume
  | unallocatedSpace _ => .unallocatedSpace
  | terminating _ => .terminating
  | logicalVolumeIntegrity _ => .logicalVolumeIntegrity
  | fileSet _ => .fileSet
  | fileIdentifier _ => .fileIdentifier
  | fileEntry _ => .fileEntry

def tag : Descriptor → Tag
  | primaryVolume descriptor => descriptor.tag
  | anchorPointer descriptor => descriptor.tag
  | volumePointer descriptor => descriptor.tag
  | implementationUseVolume descriptor => descriptor.tag
  | partition descriptor => descriptor.tag
  | logicalVolume descriptor => descriptor.tag
  | unallocatedSpace descriptor => descriptor.tag
  | terminating descriptor => descriptor.tag
  | logicalVolumeIntegrity descriptor => descriptor.tag
  | fileSet descriptor => descriptor.tag
  | fileIdentifier descriptor => descriptor.tag
  | fileEntry descriptor => descriptor.tag

def primaryVolume? : Descriptor → Option PrimaryVolume
  | primaryVolume descriptor => some descriptor
  | _ => none

def anchorPointer? : Descriptor → Option AnchorPointer
  | anchorPointer descriptor => some descriptor
  | _ => none

def partition? : Descriptor → Option Partition
  | partition descriptor => some descriptor
  | _ => none

def logicalVolume? : Descriptor → Option LogicalVolume
  | logicalVolume descriptor => some descriptor
  | _ => none

def fileSet? : Descriptor → Option FileSet
  | fileSet descriptor => some descriptor
  | _ => none

def fileIdentifier? : Descriptor → Option FileIdentifier
  | fileIdentifier descriptor => some descriptor
  | _ => none

def fileEntry? : Descriptor → Option FileEntry
  | fileEntry descriptor => some descriptor
  | _ => none

/-- A descriptor of a given kind, which its tag must name. -/
def decodeAs : DescriptorKind → Decoder Descriptor
  | .primaryVolume => primaryVolume <$> PrimaryVolume.decode
  | .anchorPointer => anchorPointer <$> AnchorPointer.decode
  | .volumePointer => volumePointer <$> VolumePointer.decode
  | .implementationUseVolume => implementationUseVolume <$> ImplementationUseVolume.decode
  | .partition => partition <$> Partition.decode
  | .logicalVolume => logicalVolume <$> LogicalVolume.decode
  | .unallocatedSpace => unallocatedSpace <$> UnallocatedSpace.decode
  | .terminating => terminating <$> Terminating.decode
  | .logicalVolumeIntegrity => logicalVolumeIntegrity <$> LogicalVolumeIntegrity.decode
  | .fileSet => fileSet <$> FileSet.decode
  | .fileIdentifier => fileIdentifier <$> FileIdentifier.decode
  | .fileEntry => fileEntry <$> FileEntry.decode

/-- The kind that carries a tag identifier, which must be a known one. -/
def kindOf (tag : Int) : Except Failure DescriptorKind :=
  match DescriptorKind.ofTag? tag with
  | some kind => .ok kind
  | none => .error (.malformed (.unknownTag tag))

/-- The descriptor at the cursor. -/
def decode : Decoder Descriptor := do
  let tag ← Decoder.peekUInt16
  let kind ← Decoder.settle (kindOf tag.toNat)
  decodeAs kind

/-- The descriptor at the cursor, which must carry a given tag identifier. -/
def decodeTagged (tag : Int) : Decoder Descriptor := do
  let descriptor ← decode
  Decoder.demand (descriptor.kind.tagNumber = tag) (.tagMismatch tag descriptor.kind.tagNumber)
  return descriptor

instance (kind : DescriptorKind) : Decoder.Progressing (decodeAs kind) := by
  cases kind <;> (unfold decodeAs; infer_instance)

instance : Decoder.Progressing decode := by unfold decode; infer_instance

instance (tag : Int) : Decoder.Progressing (decodeTagged tag) := by
  unfold decodeTagged; infer_instance

/-- The first descriptor of a sequence with a tag identifier. -/
def find? (tag : Int) (sequence : List Descriptor) : Option Descriptor :=
  sequence.find? fun descriptor => descriptor.kind.tagNumber == tag

/-- (first kind select sequence) is the first descriptor of a kind, which select picks out. -/
def first (kind : DescriptorKind) (select : Descriptor → Option α) (sequence : List Descriptor)
    : Except Failure α :=
  match sequence.findSome? select with
  | some value => .ok value
  | none => .error (.malformed (.noDescriptor kind.tagNumber))

/-- The first descriptor of a sequence with a tag identifier, which must be there. -/
def find (tag : Int) (sequence : List Descriptor) : Except Failure Descriptor :=
  match find? tag sequence with
  | some descriptor => .ok descriptor
  | none => .error (.malformed (.noDescriptor tag))

end Descriptor

end DiscVolume
