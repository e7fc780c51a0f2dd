import DiscVolume.Proofs.Descriptor.Dispatch
import DiscVolume.Proofs.Directory.Reach

/-! A tag is expected to be that of a kind before the descriptor is read, and the kind is chosen by
the identifier in the same tag. So the expectation is always met: nothing but the tag of a
descriptor is compared with a kind, and there the two are the same number.
-/

namespace DiscVolume

open Decoder Sequencing

/-- Whether a failure says that a tag is that of another kind than the expected one. -/
def Failure.isTagMismatch : Failure → Bool
  | .malformed (.tagMismatch ..) => true
  | _ => false

/-- A defect that is not about the kind of a tag. -/
class Defect.KindBlind (cause : Defect) : Prop where
  isTagMismatch : (Failure.malformed cause).isTagMismatch = false

namespace Defect

instance (length size : Nat) : KindBlind (.dstringLength length size) := ⟨rfl⟩
instance (compression : UInt8) : KindBlind (.dstringCompression compression) := ⟨rfl⟩
instance (encoding : UInt8) : KindBlind (.identifierEncoding encoding) := ⟨rfl⟩
instance (fault : Text.Utf16.Fault) : KindBlind (.identifierText fault) := ⟨rfl⟩
instance : KindBlind .tagReserved := ⟨rfl⟩
instance : KindBlind .tagChecksum := ⟨rfl⟩
instance : KindBlind .tagVersion := ⟨rfl⟩
instance : KindBlind .tagCrc := ⟨rfl⟩
instance (type : UInt8) : KindBlind (.partitionMapType type) := ⟨rfl⟩
instance (length : UInt8) : KindBlind (.partitionMapLength length) := ⟨rfl⟩
instance (supported : Nat) : KindBlind (.blockSize supported) := ⟨rfl⟩
instance (type : Nat) : KindBlind (.allocationType type) := ⟨rfl⟩

end Defect

namespace Decoder

/-- A decoder that compares no tag with a kind. -/
class KindBlind (decoder : Decoder α) : Prop where
  isTagMismatch {cursor next : Cursor} {failure : Failure}
    (failed : decoder cursor = .error failure next)
    : failure.isTagMismatch = false

instance (value : α) : KindBlind (pure value : Decoder α) where
  isTagMismatch failed := by cases failed

instance (cause : Defect) [cause.KindBlind]
    : KindBlind (throw (.malformed cause) : Decoder α) where
  isTagMismatch failed := by
    cases failed
    exact Defect.KindBlind.isTagMismatch

instance (first : Decoder α) (others : α → Decoder β) [KindBlind first]
    [∀ value, KindBlind (others value)] : KindBlind (first >>= others) where
  isTagMismatch {cursor next failure} failed := by
    cases found : first cursor with
    | ok value middle =>
        rw [bind_of_ok found] at failed
        exact KindBlind.isTagMismatch failed
    | error own middle =>
        rw [bind_of_error found] at failed
        cases failed
        exact KindBlind.isTagMismatch found

instance (decoder : Decoder α) (f : α → β) [KindBlind decoder] : KindBlind (f <$> decoder) where
  isTagMismatch failed := KindBlind.isTagMismatch (error_of_map failed)

instance (condition : Prop) [Decidable condition] (a b : Decoder α) [KindBlind a] [KindBlind b]
    : KindBlind (if condition then a else b) := by
  split <;> infer_instance

instance (count : Nat) : KindBlind (take count) where
  isTagMismatch failed := by
    obtain ⟨_, rfl⟩ := truncated_of_take failed
    rfl

instance (count : Nat) : KindBlind (require count) where
  isTagMismatch failed := by
    obtain ⟨_, rfl⟩ := truncated_of_require failed
    rfl

instance (count : Nat) : KindBlind (peek count) where
  isTagMismatch failed := by
    obtain ⟨_, rfl⟩ := truncated_of_peek failed
    rfl

instance : KindBlind position where
  isTagMismatch failed := by cases failed

instance (count : Nat) : KindBlind (skip count) := by unfold skip; infer_instance

instance (condition : Bool) (cause : Defect) [cause.KindBlind]
    : KindBlind (demand condition cause) := by
  unfold demand; infer_instance

instance (decoder : Decoder α) [KindBlind decoder] (count : Nat)
    : KindBlind (times decoder count) := by
  induction count with
  | zero => unfold times; infer_instance
  | succ count ih => unfold times; infer_instance

instance : KindBlind uint8 := by unfold uint8; infer_instance
instance : KindBlind uint16 := by unfold uint16; infer_instance
instance : KindBlind uint32 := by unfold uint32; infer_instance
instance : KindBlind uint64 := by unfold uint64; infer_instance
instance : KindBlind uint48 := by unfold uint48; infer_instance

instance (size : Nat) : KindBlind (dstring size) := by unfold dstring; infer_instance

instance (compression : UInt8) (data : Bytes)
    : KindBlind (settle (dcharactersText compression data)) := by
  unfold dcharactersText
  split
  · unfold settle; infer_instance
  · split
    · split <;> (unfold settle; infer_instance)
    · unfold settle; infer_instance

instance (length : Nat) : KindBlind (dcharacters length) := by unfold dcharacters; infer_instance

instance : KindBlind timestamp := by unfold timestamp; infer_instance

end Decoder

-----------------------------------------------------------------------------------------
-- The parts of descriptors
-----------------------------------------------------------------------------------------

instance : KindBlind EntityId.decode := by unfold EntityId.decode; infer_instance
instance : KindBlind CharacterSet.decode := by unfold CharacterSet.decode; infer_instance

instance (total : Int) : KindBlind (ImplementationUse.decode total) := by
  unfold ImplementationUse.decode; infer_instance

instance : KindBlind Extent.decode := by unfold Extent.decode; infer_instance
instance : KindBlind ShortAllocation.decode := by unfold ShortAllocation.decode; infer_instance
instance : KindBlind LongAllocation.decode := by unfold LongAllocation.decode; infer_instance
instance : KindBlind BlockAddress.decode := by unfold BlockAddress.decode; infer_instance
instance : KindBlind PartitionMap.decode := by unfold PartitionMap.decode; infer_instance
instance : KindBlind IcbTag.decode := by unfold IcbTag.decode; infer_instance

instance : KindBlind LogicalVolumeInformation.decode := by
  unfold LogicalVolumeInformation.decode; infer_instance

instance : KindBlind LogicalVolumeIntegrity.header := by
  unfold LogicalVolumeIntegrity.header; infer_instance

instance (form length : Nat) : KindBlind (FileData.decode form length) := by
  unfold FileData.decode
  split <;> infer_instance

instance (start : Nat) (tag : Tag) : KindBlind (FileIdentifier.fields start tag) := by
  unfold FileIdentifier.fields; infer_instance

set_option synthInstance.maxSize 512 in
instance : KindBlind Tag.decode := by unfold Tag.decode; infer_instance

-----------------------------------------------------------------------------------------
-- Descriptors
-----------------------------------------------------------------------------------------

variable {cursor next : Cursor} {failure : Failure}

/-- A tag that names the expected kind is no mismatch. -/
theorem Tag.isTagMismatch_of_expect {kind : DescriptorKind}
    (named : UInt16.ofNat (Bytes.littleEndian (cursor.rest.take 2)) = kind.tag)
    (failed : expect kind cursor = .error failure next)
    : failure.isTagMismatch = false := by
  cases found : decode cursor with
  | ok tag middle =>
      obtain ⟨-, -, rfl, rfl⟩ := decode_eq_ok_iff.mp found
      have identifier : (ofBytes (cursor.rest.take size)).identifier = kind.tag := by
        rw [← named, ofBytes, field_eq _ (by decide), List.drop_zero]
      rw [expect, bind_of_ok found, bind_of_ok (demand_of_true (by simpa using identifier))]
        at failed
      cases failed
  | error own middle =>
      rw [expect, bind_of_error found] at failed
      cases failed
      exact KindBlind.isTagMismatch found

/-- What comes behind the tag of a descriptor compares no tag with a kind. -/
theorem Tag.isTagMismatch_of_expect_bind {kind : DescriptorKind} {others : Tag → Decoder α}
    [∀ tag, KindBlind (others tag)]
    (named : UInt16.ofNat (Bytes.littleEndian (cursor.rest.take 2)) = kind.tag)
    (failed : (expect kind >>= others) cursor = .error failure next)
    : failure.isTagMismatch = false := by
  cases found : expect kind cursor with
  | ok tag middle =>
      rw [bind_of_ok found] at failed
      exact KindBlind.isTagMismatch failed
  | error own middle =>
      rw [bind_of_error found] at failed
      cases failed
      exact isTagMismatch_of_expect named found

namespace Descriptor

set_option synthInstance.maxSize 512 in
theorem isTagMismatch_of_decodeAs {kind : DescriptorKind}
    (named : UInt16.ofNat (Bytes.littleEndian (cursor.rest.take 2)) = kind.tag)
    (failed : decodeAs kind cursor = .error failure next)
    : failure.isTagMismatch = false := by
  cases kind
  case fileIdentifier =>
    -- The place of a file identifier is noted before its tag is read.
    have noted : position cursor = .ok cursor.offset cursor := rfl
    have failed := error_of_map failed
    rw [FileIdentifier.decode_eq, bind_of_ok noted] at failed
    exact Tag.isTagMismatch_of_expect_bind named failed
  all_goals exact Tag.isTagMismatch_of_expect_bind named (error_of_map failed)

/-- No descriptor is turned down for being of another kind than the expected one. -/
theorem isTagMismatch_of_decode (failed : decode cursor = .error failure next)
    : failure.isTagMismatch = false := by
  obtain missing | ⟨number, unknown⟩ | ⟨kind, named, same⟩ := decode_cases cursor
  · rw [missing] at failed
    cases failed
    rfl
  · rw [unknown] at failed
    cases failed
    rfl
  · exact isTagMismatch_of_decodeAs named (same ▸ failed)

end Descriptor

end DiscVolume
