import DiscVolume.Directory
import DiscVolume.Proofs.Cursor.Verdicts
import DiscVolume.Recognition

/-! Whatever bytes stand where a descriptor, a record of a directory or a volume structure is
expected, reading it fails only with a verdict on the image.
-/

namespace DiscVolume

open Decoder

instance : Judging EntityId.decode := by unfold EntityId.decode; infer_instance
instance : Judging CharacterSet.decode := by unfold CharacterSet.decode; infer_instance

instance (total : Int) : Judging (ImplementationUse.decode total) := by
  unfold ImplementationUse.decode; infer_instance

instance : Judging Extent.decode := by unfold Extent.decode; infer_instance
instance : Judging ShortAllocation.decode := by unfold ShortAllocation.decode; infer_instance
instance : Judging LongAllocation.decode := by unfold LongAllocation.decode; infer_instance
instance : Judging BlockAddress.decode := by unfold BlockAddress.decode; infer_instance

set_option synthInstance.maxSize 512 in
instance : Judging Tag.decode := by unfold Tag.decode; infer_instance

instance (kind : DescriptorKind) : Judging (Tag.expect kind) := by
  unfold Tag.expect; infer_instance

instance : Judging PrimaryVolume.decode := by unfold PrimaryVolume.decode; infer_instance
instance : Judging AnchorPointer.decode := by unfold AnchorPointer.decode; infer_instance
instance : Judging VolumePointer.decode := by unfold VolumePointer.decode; infer_instance

instance : Judging LogicalVolumeInformation.decode := by
  unfold LogicalVolumeInformation.decode; infer_instance

instance : Judging ImplementationUseVolume.decode := by
  unfold ImplementationUseVolume.decode; infer_instance

instance : Judging Terminating.decode := by unfold Terminating.decode; infer_instance
instance : Judging Partition.decode := by unfold Partition.decode; infer_instance
instance : Judging PartitionMap.decode := by unfold PartitionMap.decode; infer_instance
instance : Judging LogicalVolume.decode := by unfold LogicalVolume.decode; infer_instance
instance : Judging UnallocatedSpace.decode := by unfold UnallocatedSpace.decode; infer_instance

instance : Judging LogicalVolumeIntegrity.header := by
  unfold LogicalVolumeIntegrity.header; infer_instance

instance : Judging LogicalVolumeIntegrity.decode := by
  unfold LogicalVolumeIntegrity.decode; infer_instance

instance : Judging FileSet.decode := by unfold FileSet.decode; infer_instance
instance : Judging FileIdentifier.decode := by unfold FileIdentifier.decode; infer_instance
instance : Judging IcbTag.decode := by unfold IcbTag.decode; infer_instance

instance (form length : Nat) : Judging (FileData.decode form length) := by
  unfold FileData.decode
  split <;> infer_instance

set_option synthInstance.maxSize 512 in
instance : Judging FileEntry.decode := by unfold FileEntry.decode; infer_instance

namespace Descriptor

instance (kind : DescriptorKind) : Judging (decodeAs kind) := by
  cases kind <;> (unfold decodeAs; infer_instance)

instance (tag : Int) : Judging (settle (kindOf tag)) := by
  unfold kindOf
  split <;> (unfold settle; infer_instance)

instance : Judging decode := by unfold decode; infer_instance

instance (tag : Int) : Judging (decodeTagged tag) := by unfold decodeTagged; infer_instance

end Descriptor

namespace Directory

instance : Judging record := by
  unfold record
  have (descriptor : Descriptor) : Judging (match descriptor.fileIdentifier? with
      | some identifier => (pure identifier : Decoder FileIdentifier)
      | none => throw (.malformed (.tagMismatch DescriptorKind.fileIdentifier.tagNumber
          descriptor.kind.tagNumber))) := by
    split <;> infer_instance
  infer_instance

/-- What stops the reading of records is a verdict, by induction on the bytes left to read. -/
theorem isVerdict_of_records {size : Nat} {cursor : Cursor} {failure : Failure}
    (stopped : (records size cursor).2 = some failure)
    : failure.IsVerdict := by
  fun_induction records size cursor with
  | case1 cursor inside identifier next found _ others failure read ih =>
      refine ih ?_
      rw [read]
      exact stopped
  | case2 cursor inside failed _ found =>
      cases stopped
      exact Judging.isVerdict found
  | case3 => cases stopped

end Directory

namespace VolumeStructure

instance : Judging StructureHeader.decode := by unfold StructureHeader.decode; infer_instance

instance (header : StructureHeader) : Judging (settle (ofHeader header)) := by
  unfold ofHeader
  split <;> (unfold settle; infer_instance)

instance : Judging decode := by unfold decode; infer_instance

end VolumeStructure

end DiscVolume
