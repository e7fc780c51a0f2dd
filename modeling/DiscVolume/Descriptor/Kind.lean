/-! The kinds of descriptor that are understood, and the tag identifier each one carries. -/

namespace DiscVolume

/-- A kind of descriptor of a volume or of its file structure. -/
inductive DescriptorKind where
  | primaryVolume
  | anchorPointer
  | volumePointer
  | implementationUseVolume
  | partition
  | logicalVolume
  | unallocatedSpace
  | terminating
  | logicalVolumeIntegrity
  | fileSet
  | fileIdentifier
  | fileEntry
  deriving DecidableEq, Repr

namespace DescriptorKind

/-- The tag identifier of a kind. -/
def tag : DescriptorKind → UInt16
  | primaryVolume => 0x0001
  | anchorPointer => 0x0002
  | volumePointer => 0x0003
  | implementationUseVolume => 0x0004
  | partition => 0x0005
  | logicalVolume => 0x0006
  | unallocatedSpace => 0x0007
  | terminating => 0x0008
  | logicalVolumeIntegrity => 0x0009
  | fileSet => 0x0100
  | fileIdentifier => 0x0101
  | fileEntry => 0x0105

/-- The name of a kind in listings. -/
def label : DescriptorKind → String
  | primaryVolume => "UDFPrimaryVolumeDescriptor"
  | anchorPointer => "UDFAnchorVolumeDescriptorPointer"
  | volumePointer => "UDFVolumeDescriptorPointer"
  | implementationUseVolume => "UDFImplementationUseVolumeDescriptor"
  | partition => "UDFPartitionDescriptor"
  | logicalVolume => "UDFLogicalVolumeDescriptor"
  | unallocatedSpace => "UDFUnallocatedSpaceDescriptor"
  | terminating => "UDFTerminatingDescriptor"
  | logicalVolumeIntegrity => "UDFLogicalVolumeIntegrityDescriptor"
  | fileSet => "UDFFileSetDescriptor"
  | fileIdentifier => "UDFFileIdentifierDescriptor"
  | fileEntry => "UDFFileEntry"

def all : List DescriptorKind :=
  [primaryVolume, anchorPointer, volumePointer, implementationUseVolume, partition,
    logicalVolume, unallocatedSpace, terminating, logicalVolumeIntegrity, fileSet,
    fileIdentifier, fileEntry]

theorem mem_all (kind : DescriptorKind) : kind ∈ all := by
  cases kind <;> decide

/-- The tag identifier as a number. -/
def tagNumber (kind : DescriptorKind) : Int := kind.tag.toNat

/-- The kind that carries a tag identifier. -/
def ofTag? (tag : Int) : Option DescriptorKind :=
  all.find? fun kind => kind.tagNumber == tag

/-- Every kind is found by the tag identifier it carries. -/
theorem ofTag?_tagNumber (kind : DescriptorKind) : ofTag? kind.tagNumber = some kind := by
  cases kind <;> decide

end DescriptorKind

end DiscVolume
