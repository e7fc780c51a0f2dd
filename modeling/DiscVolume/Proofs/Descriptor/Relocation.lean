import DiscVolume.Proofs.Cursor.Relocation
import DiscVolume.Proofs.Directory.Reach

/-! Descriptors that may be moved. A descriptor is found again with the same contents wherever its
buffer stands within another one, whatever is in front of it and behind it.
-/

namespace DiscVolume

open Decoder Sequencing

instance : Field Tag.decode Tag.size := by unfold Tag.decode; infer_instance

instance (kind : DescriptorKind) : Field (Tag.expect kind) Tag.size := by
  unfold Tag.expect
  infer_instance

set_option synthInstance.maxSize 512 in
instance : Field PrimaryVolume.decode 512 := by unfold PrimaryVolume.decode; infer_instance
instance : Field AnchorPointer.decode 512 := by unfold AnchorPointer.decode; infer_instance
instance : Field VolumePointer.decode 512 := by unfold VolumePointer.decode; infer_instance

instance : Field LogicalVolumeInformation.decode 460 := by
  unfold LogicalVolumeInformation.decode
  infer_instance

instance : Field ImplementationUseVolume.decode 512 := by
  unfold ImplementationUseVolume.decode
  infer_instance

instance : Field Terminating.decode 512 := by unfold Terminating.decode; infer_instance
instance : Field Partition.decode 512 := by unfold Partition.decode; infer_instance
set_option synthInstance.maxSize 512 in
instance : Field FileSet.decode 512 := by unfold FileSet.decode; infer_instance

instance : Field PartitionMap.decode 6 := by unfold PartitionMap.decode; infer_instance
set_option synthInstance.maxSize 512 in
instance : Movable LogicalVolume.decode := by unfold LogicalVolume.decode; infer_instance
instance : Movable UnallocatedSpace.decode := by unfold UnallocatedSpace.decode; infer_instance

instance : Field LogicalVolumeIntegrity.header 32 := by
  unfold LogicalVolumeIntegrity.header
  infer_instance

instance : Movable LogicalVolumeIntegrity.decode := by
  unfold LogicalVolumeIntegrity.decode
  infer_instance

instance : Field IcbTag.decode 20 := by unfold IcbTag.decode; infer_instance

instance (form length : Nat) : Movable (FileData.decode form length) := by
  unfold FileData.decode
  split <;> infer_instance

set_option synthInstance.maxSize 512 in
instance : Movable FileEntry.decode := by unfold FileEntry.decode; infer_instance

namespace FileIdentifier

variable {shift start : Nat} {behind : Bytes}

/-- The filler of a record is counted from the start of the record and not of the buffer. -/
theorem moves_fields (tag : Tag)
    : Moves shift behind (fields start tag) (fields (shift + start) tag) := by
  refine (Movable.moves shift behind).bind fun version => ?_
  refine (Movable.moves shift behind).bind fun characteristics => ?_
  refine (Movable.moves shift behind).bind fun nameLength => ?_
  refine (Movable.moves shift behind).bind fun icb => ?_
  refine (Movable.moves shift behind).bind fun implementationUseLength => ?_
  refine (Movable.moves shift behind).bind fun implementationUse => ?_
  refine (Movable.moves shift behind).bind fun name => .position fun stop => ?_
  have distance : ((shift + stop : Nat) : Int) - (shift + start : Nat) = stop - start := by omega
  rw [distance]
  exact Movable.moves shift behind

instance : Movable decode where
  moves shift behind := .position fun start => by
    refine (Movable.moves shift behind).bind fun tag => ?_
    refine (Movable.moves shift behind).bind fun _ => ?_
    exact moves_fields tag

end FileIdentifier

namespace Descriptor

instance (kind : DescriptorKind) : Movable (decodeAs kind) := by
  cases kind <;> (unfold decodeAs; infer_instance)

instance : Movable decode := by unfold decode; infer_instance

/-- A descriptor is found again where its buffer stands within another one: with the same contents,
and ending as far behind its start as before.
-/
theorem decode_relocated {buffer : Bytes} {descriptor : Descriptor} {next : Cursor}
    (found : decode (Cursor.ofBytes buffer) = .ok descriptor next) (front behind : Bytes)
    : decode ((Cursor.ofBytes (front ++ buffer ++ behind)).advance front.length)
      = .ok descriptor ⟨front.length + next.offset, next.rest ++ behind⟩ := by
  have within : (Cursor.ofBytes (front ++ buffer ++ behind)).advance front.length
      = (Cursor.ofBytes buffer).moved front.length behind := by
    simp [Cursor.ofBytes, Cursor.advance, Cursor.moved]
  rw [within]
  exact Movable.moves front.length behind _ _ _ found

/-- The record of a file, which takes up forty-one bytes and three of filler. -/
def recordBytes : Bytes :=
  [1, 1, 2, 0, 37, 0, 0, 0, 215, 70, 4, 0, 0, 0, 0, 0, 1, 0, 0, 3, 0, 8, 0, 0, 5, 0, 0, 0, 0, 0,
    0, 0, 0, 0, 0, 0, 0, 0, 8, 65, 66, 0, 0, 0]

def recordedIdentifier : FileIdentifier where
  tag := ⟨257, 2, 37, 0, 18135, 4, 0⟩
  version := 1
  characteristics := 0
  nameLength := 3
  icb := ⟨⟨2048, 0⟩, 5⟩
  implementationUseLength := 0
  implementationUse := []
  name := "AB"

/-- The record is found again behind one byte, where it does not start at a multiple of four. -/
theorem decode_relocated_record
    : decode (Cursor.ofBytes (recordBytes ++ [7]))
        = .ok (.fileIdentifier recordedIdentifier) ⟨44, [7]⟩
      ∧ decode ((Cursor.ofBytes ([255] ++ (recordBytes ++ [7]) ++ [6, 5])).advance 1)
        = .ok (.fileIdentifier recordedIdentifier) ⟨45, [7, 6, 5]⟩ := by
  have found : decode (Cursor.ofBytes (recordBytes ++ [7]))
      = .ok (.fileIdentifier recordedIdentifier) ⟨44, [7]⟩ := by
    rfl
  exact ⟨found, decode_relocated found [255] [6, 5]⟩

end Descriptor

end DiscVolume
