import DiscVolume.Proofs.Descriptor.Dispatch
import DiscVolume.Proofs.Descriptor.Layouts

/-! Descriptors of a volume as they are recorded: a tag of the kind, stamped with its check values,
and the body behind it. Every kind is read back where it is recorded, whatever stands in the open
bytes of the body and whatever follows.
-/

namespace DiscVolume.Descriptor

open Decoder

/-- The same descriptor under another tag. -/
def withTag (tag : Tag) : Descriptor → Descriptor
  | primaryVolume descriptor => primaryVolume { descriptor with tag }
  | anchorPointer descriptor => anchorPointer { descriptor with tag }
  | volumePointer descriptor => volumePointer { descriptor with tag }
  | implementationUseVolume descriptor => implementationUseVolume { descriptor with tag }
  | partition descriptor => partition { descriptor with tag }
  | logicalVolume descriptor => logicalVolume { descriptor with tag }
  | unallocatedSpace descriptor => unallocatedSpace { descriptor with tag }
  | terminating _ => terminating { tag }
  | logicalVolumeIntegrity descriptor => logicalVolumeIntegrity { descriptor with tag }
  | fileSet descriptor => fileSet { descriptor with tag }
  | fileIdentifier descriptor => fileIdentifier { descriptor with tag }
  | fileEntry descriptor => fileEntry { descriptor with tag }

/-- How a descriptor of a volume is recorded behind its tag. Descriptors of files do not belong to
a volume as a whole and have no form here.
-/
def layout : Descriptor → Template
  | primaryVolume descriptor => descriptor.layout
  | anchorPointer descriptor => descriptor.layout
  | volumePointer descriptor => descriptor.layout
  | implementationUseVolume descriptor => descriptor.layout
  | partition descriptor => descriptor.layout
  | logicalVolume descriptor => descriptor.layout
  | unallocatedSpace descriptor => descriptor.layout
  | terminating _ => Terminating.layout
  | logicalVolumeIntegrity descriptor => descriptor.layout
  | fileSet descriptor => descriptor.layout
  | fileIdentifier _ | fileEntry _ => []

/-- The fields behind the tag are in the ranges that they can be recorded in. -/
def HasRecordableFields : Descriptor → Prop
  | primaryVolume descriptor => descriptor.IsRecordable
  | anchorPointer _ | volumePointer _ | terminating _ => True
  | implementationUseVolume descriptor => descriptor.IsRecordable
  | partition descriptor => descriptor.IsRecordable
  | logicalVolume descriptor => descriptor.IsRecordable
  | unallocatedSpace descriptor => descriptor.IsRecordable
  | logicalVolumeIntegrity descriptor => descriptor.IsRecordable
  | fileSet descriptor => descriptor.IsRecordable
  | fileIdentifier _ | fileEntry _ => False

/-- A descriptor of a volume that can be recorded. The tag covers no more than the body; its check
values are not looked at, because recording replaces them.
-/
structure IsRecordable (descriptor : Descriptor) : Prop where
  named : descriptor.tag.identifier = descriptor.kind.tag
  known : descriptor.tag.version = 2 ∨ descriptor.tag.version = 3
  covered : descriptor.tag.crcLength.toNat ≤ descriptor.layout.length
  fields : descriptor.HasRecordableFields

/-- The body over a background that shows through its open bytes. -/
def body (descriptor : Descriptor) (background : Nat → UInt8) : Bytes :=
  descriptor.layout.filled background

/-- The tag with the check values that it is recorded with. -/
def stampedTag (descriptor : Descriptor) (background : Nat → UInt8) : Tag :=
  descriptor.tag.stamped (descriptor.body background)

/-- The bytes that a descriptor is recorded in. -/
def encoded (descriptor : Descriptor) (background : Nat → UInt8) : Bytes :=
  (descriptor.stampedTag background).bytes ++ descriptor.body background

/-- Behind a tag that vouches for it, every kind of body is read as what it records. -/
theorem reads_decodeAs {descriptor : Descriptor} {tag : Tag} {background : Nat → UInt8}
    (fields : descriptor.HasRecordableFields)
    (heads : tag.Heads descriptor.kind (descriptor.body background)) (offset : Nat)
    : Reads (decodeAs descriptor.kind) offset (tag.bytes ++ descriptor.body background)
        (descriptor.withTag tag) := by
  cases descriptor with
  | primaryVolume descriptor => exact (PrimaryVolume.IsRecordable.reads fields heads offset).map
  | anchorPointer descriptor => exact (AnchorPointer.reads heads offset).map
  | volumePointer descriptor => exact (VolumePointer.reads heads offset).map
  | implementationUseVolume descriptor =>
      exact (ImplementationUseVolume.IsRecordable.reads fields heads offset).map
  | partition descriptor => exact (Partition.IsRecordable.reads fields heads offset).map
  | logicalVolume descriptor => exact (LogicalVolume.IsRecordable.reads fields heads offset).map
  | unallocatedSpace descriptor =>
      exact (UnallocatedSpace.IsRecordable.reads fields heads offset).map
  | terminating descriptor => exact (Terminating.reads heads offset).map
  | logicalVolumeIntegrity descriptor =>
      exact (LogicalVolumeIntegrity.IsRecordable.reads fields heads offset).map
  | fileSet descriptor => exact (FileSet.IsRecordable.reads fields heads offset).map
  | fileIdentifier descriptor => exact fields.elim
  | fileEntry descriptor => exact fields.elim

/-- Decoding undoes encoding. Where a descriptor of a volume is recorded, over any background and
with anything behind it, the same descriptor is found, its tag with the check values it was
recorded with, and reading stops right behind it.
-/
theorem decode_encoded {descriptor : Descriptor} (recordable : descriptor.IsRecordable)
    (background : Nat → UInt8) (offset : Nat) (rest : Bytes)
    : decode ⟨offset, descriptor.encoded background ++ rest⟩
      = .ok (descriptor.withTag (descriptor.stampedTag background))
          ⟨offset + (descriptor.encoded background).length, rest⟩ := by
  have heads : (descriptor.stampedTag background).Heads descriptor.kind
      (descriptor.body background) :=
    Tag.heads_stamped recordable.named recordable.known
      (by rw [body, Template.length_filled]; exact recordable.covered)
  have named : (Tag.ofBytes (descriptor.stampedTag background).bytes).identifier
      = descriptor.kind.tag := by
    rw [Tag.ofBytes_bytes, heads.named]
  have chosen := decode_append_eq_decodeAs (Tag.length_bytes _) named offset
    (descriptor.body background ++ rest)
  rw [← List.append_assoc] at chosen
  rw [encoded, chosen]
  exact reads_decodeAs recordable.fields heads offset rest

/-- The integrity of a logical volume on two partitions, with a recorded time and with two bytes
for the use of the implementation.
-/
def twoPartitions : Descriptor := .logicalVolumeIntegrity {
  tag := ⟨9, 3, 0, 1, 0, 114, 64⟩
  recordingTime := some ⟨2004, 2, 29, 12, 30, 5⟩
  type := 1
  nextExtent := ⟨0, 0⟩
  uniqueId := 300
  partitionCount := 2
  implementationUseLength := 34
  freeSpace := [100, 0]
  sizes := [2000, 70000]
  implementationUse := {
    entity := ⟨0, Bytes.ofText "*plain" ++ List.replicate 17 0, List.replicate 8 7⟩
    data := [1, 2]
  }
}

theorem twoPartitions_isRecordable : twoPartitions.IsRecordable where
  named := rfl
  known := .inr rfl
  covered := by decide
  fields := {
    recordingTime := by
      rintro civil found
      cases found
      constructor <;> decide
    freeSpace := rfl
    sizes := rfl
    implementationUse := ⟨⟨rfl, rfl⟩, rfl⟩
  }

/-- The descriptor on two partitions is found in 130 bytes, in front of three others. -/
theorem decode_encoded_twoPartitions
    : twoPartitions.IsRecordable
      ∧ decode ⟨0, twoPartitions.encoded (fun place => .ofNat place) ++ [1, 2, 3]⟩
        = .ok (twoPartitions.withTag (twoPartitions.stampedTag fun place => .ofNat place))
            ⟨130, [1, 2, 3]⟩ := by
  have length : (twoPartitions.encoded fun place => .ofNat place).length = 130 := by
    rw [encoded, List.length_append, Tag.length_bytes, body, Template.length_filled]
    decide
  have found := decode_encoded twoPartitions_isRecordable (fun place => .ofNat place) 0 [1, 2, 3]
  rw [length] at found
  exact ⟨twoPartitions_isRecordable, found⟩

end DiscVolume.Descriptor
