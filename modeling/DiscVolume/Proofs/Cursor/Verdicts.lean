import DiscVolume.Proofs.Cursor.Steps

/-! Decoders that fail only with a verdict on the image. Whatever the bytes, reading them either
succeeds, or comes upon the end of the data or something malformed.
-/

namespace DiscVolume

/-- A defect that is found in the bytes of the image and not reported by a medium. -/
class Defect.FromBytes (cause : Defect) : Prop where
  ne_reported : ∀ activity report, cause ≠ .reportedByMedium activity report

namespace Defect

instance (length size : Nat) : FromBytes (.dstringLength length size) := ⟨nofun⟩
instance (compression : UInt8) : FromBytes (.dstringCompression compression) := ⟨nofun⟩
instance (encoding : UInt8) : FromBytes (.identifierEncoding encoding) := ⟨nofun⟩
instance (fault : Text.Utf16.Fault) : FromBytes (.identifierText fault) := ⟨nofun⟩
instance : FromBytes .tagReserved := ⟨nofun⟩
instance : FromBytes .tagChecksum := ⟨nofun⟩
instance : FromBytes .tagVersion := ⟨nofun⟩
instance : FromBytes .tagCrc := ⟨nofun⟩
instance (expected actual : Int) : FromBytes (.tagMismatch expected actual) := ⟨nofun⟩
instance (tag : Int) : FromBytes (.unknownTag tag) := ⟨nofun⟩
instance (type : UInt8) : FromBytes (.partitionMapType type) := ⟨nofun⟩
instance (length : UInt8) : FromBytes (.partitionMapLength length) := ⟨nofun⟩
instance (supported : Nat) : FromBytes (.blockSize supported) := ⟨nofun⟩
instance (type : Nat) : FromBytes (.allocationType type) := ⟨nofun⟩
instance (identifier : String) : FromBytes (.unknownStructure identifier) := ⟨nofun⟩

end Defect

/-- The image ends too early, or its bytes have a defect. -/
inductive Failure.IsVerdict : Failure → Prop where
  | truncated (truncation : Truncation) : IsVerdict (.truncated truncation)
  | malformed (cause : Defect) [cause.FromBytes] : IsVerdict (.malformed cause)

/-- No verdict passes on what a medium has reported. -/
theorem Failure.IsVerdict.ne_reported {failure : Failure} (isVerdict : failure.IsVerdict)
    (activity : Activity) (report : String)
    : failure ≠ .malformed (.reportedByMedium activity report) := by
  cases isVerdict with
  | truncated truncation => simp
  | malformed cause =>
      intro same
      exact Defect.FromBytes.ne_reported activity report (Failure.malformed.inj same)

theorem Failure.IsVerdict.condemnsImage {failure : Failure} (isVerdict : failure.IsVerdict)
    : failure.condemnsImage = true := by
  cases isVerdict <;> rfl

namespace Decoder

/-- A decoder that fails only with a verdict on the image. -/
class Judging (decoder : Decoder α) : Prop where
  isVerdict {cursor next : Cursor} {failure : Failure} (h : decoder cursor = .error failure next)
    : failure.IsVerdict

instance (value : α) : Judging (pure value : Decoder α) where
  isVerdict h := by cases h

instance (cause : Defect) [cause.FromBytes] : Judging (throw (.malformed cause) : Decoder α) where
  isVerdict h := by
    cases h
    exact .malformed cause

instance (first : Decoder α) (others : α → Decoder β) [Judging first]
    [∀ value, Judging (others value)] : Judging (first >>= others) where
  isVerdict {cursor next failure} h := by
    cases found : first cursor with
    | ok value middle =>
        rw [Sequencing.bind_of_ok found] at h
        exact Judging.isVerdict h
    | error failure middle =>
        rw [Sequencing.bind_of_error found] at h
        cases h
        exact Judging.isVerdict found

instance (decoder : Decoder α) (f : α → β) [Judging decoder] : Judging (f <$> decoder) where
  isVerdict h := Judging.isVerdict (Sequencing.error_of_map h)

instance (condition : Prop) [Decidable condition] (a b : Decoder α) [Judging a] [Judging b]
    : Judging (if condition then a else b) where
  isVerdict h := by
    split at h
    · exact Judging.isVerdict h
    · exact Judging.isVerdict h

instance (count : Nat) : Judging (take count) where
  isVerdict h := by
    obtain ⟨truncation, rfl⟩ := truncated_of_take h
    exact .truncated truncation

instance (count : Nat) : Judging (require count) where
  isVerdict h := by
    obtain ⟨truncation, rfl⟩ := truncated_of_require h
    exact .truncated truncation

instance (count : Nat) : Judging (peek count) where
  isVerdict h := by
    obtain ⟨truncation, rfl⟩ := truncated_of_peek h
    exact .truncated truncation

instance : Judging peekUInt16 where
  isVerdict h := by
    unfold peekUInt16 at h
    split at h <;> cases h
    exact .truncated _

instance : Judging position where
  isVerdict h := by cases h

instance (count : Nat) : Judging (skip count) := by unfold skip; infer_instance

instance (condition : Bool) (cause : Defect) [cause.FromBytes]
    : Judging (demand condition cause) := by
  unfold demand; infer_instance

instance (decoder : Decoder α) [Judging decoder] (count : Nat)
    : Judging (times decoder count) := by
  induction count with
  | zero => unfold times; infer_instance
  | succ count ih => unfold times; infer_instance

instance : Judging uint8 := by unfold uint8; infer_instance
instance : Judging uint16 := by unfold uint16; infer_instance
instance : Judging uint32 := by unfold uint32; infer_instance
instance : Judging uint64 := by unfold uint64; infer_instance
instance : Judging uint48 := by unfold uint48; infer_instance

instance (size : Nat) : Judging (text size) := by unfold text; infer_instance

instance (size : Nat) : Judging (dstring size) := by unfold dstring; infer_instance

/-- Text that does not decode is a defect of the identifier. -/
instance (compression : UInt8) (data : Bytes)
    : Judging (settle (dcharactersText compression data)) := by
  unfold dcharactersText
  split
  · unfold settle; infer_instance
  · split
    · split
      · unfold settle; infer_instance
      · unfold settle; infer_instance
    · unfold settle; infer_instance

instance (length : Nat) : Judging (dcharacters length) := by unfold dcharacters; infer_instance

instance : Judging timestamp := by unfold timestamp; infer_instance

/-- What a judging decoder finds in bytes is a value or a verdict. -/
theorem isVerdict_of_value {decoder : Decoder α} [Judging decoder] {cursor : Cursor}
    {failure : Failure} (h : decoder.value cursor = .error failure)
    : failure.IsVerdict := by
  unfold value at h
  split at h
  · cases h
  · next failed =>
      cases h
      exact Judging.isVerdict failed

end Decoder

end DiscVolume
