import DiscVolume.Proofs.Cursor.Spans
import DiscVolume.Proofs.Descriptor.Corruption
import DiscVolume.Proofs.Descriptor.FileEntries
import DiscVolume.Proofs.Descriptor.KindBlind
import DiscVolume.Proofs.Descriptor.Relocation
import DiscVolume.Proofs.Descriptor.WellFormed

/-! Which descriptor is found, and how many bytes it takes up. Both can be told from what has been
found: the number at its start names its kind, and its size is that of its fixed fields and of the
lists whose counts it holds.
-/

namespace DiscVolume

open Decoder Sequencing

theorem LogicalVolume.spans_decode
    : Spans decode fun volume count =>
        count = 440 + 6 * volume.mapCount.toNat
        ∧ volume.partitionMaps.length = volume.mapCount.toNat := by
  iterate 14 refine .field fun _ => ?_
  refine .bind (.times _) fun partitionMaps count fit => .pure ⟨?_, fit.1⟩
  simp only [fit.2, Tag.size, EntityId.size]
  omega

theorem UnallocatedSpace.spans_decode
    : Spans decode fun space count =>
        count = 24 + 8 * space.extentCount.toNat
        ∧ space.extents.length = space.extentCount.toNat := by
  iterate 4 refine .field fun _ => ?_
  refine .bind (.times _) fun extents count fit => .pure ⟨?_, fit.1⟩
  simp only [fit.2, Tag.size]
  omega

theorem ImplementationUse.spans_decode (total : Int)
    : Spans (decode total) fun use count =>
        count = EntityId.size + (total - EntityId.size).toNat
        ∧ use.data.length = (total - EntityId.size).toNat := by
  refine .field fun entity => .bind (.take _) fun data count fit => .pure ⟨?_, fit.1⟩
  rw [fit.2, Nat.add_zero]

namespace LogicalVolumeIntegrity

/-- The lists of an integrity descriptor are as long as their counts say. -/
structure HasCounts (integrity : LogicalVolumeIntegrity) : Prop where
  freeSpace : integrity.freeSpace.length = integrity.partitionCount.toNat
  sizes : integrity.sizes.length = integrity.partitionCount.toNat
  implementationUse :
    integrity.implementationUse.data.length
      = integrity.implementationUseLength.toNat - EntityId.size

/-- The area for the use of an implementation takes up no less than an entity identifier. -/
theorem spans_decode
    : Spans decode fun integrity count =>
        count = 80 + 8 * integrity.partitionCount.toNat
            + max EntityId.size integrity.implementationUseLength.toNat
        ∧ integrity.HasCounts := by
  iterate 8 refine .field fun _ => ?_
  refine .bind (.times _) fun freeSpace first fitFirst => ?_
  refine .bind (.times _) fun sizes second fitSecond => ?_
  refine .bind (ImplementationUse.spans_decode _) fun use third fitThird => .pure ⟨?_, ?_⟩
  · simp only [fitFirst.2, fitSecond.2, fitThird.1, Tag.size, timestampSize]
    omega
  · exact ⟨fitFirst.1, fitSecond.1, fitThird.2.trans (Int.toNat_sub ..)⟩

end LogicalVolumeIntegrity

namespace FileData

/-- The number of bytes taken up of a length for data: those of whole allocations, or all. -/
def sizeWithin (length : Nat) : FileData → Nat
  | short _ => 8 * (length / 8)
  | long _ => 16 * (length / 16)
  | embedded _ => length

/-- As many whole allocations are found as fit a length, or all of its bytes. -/
def Fills (length : Nat) : FileData → Prop
  | short allocations => allocations.length = length / 8
  | long allocations => allocations.length = length / 16
  | embedded data => data.length = length

theorem spans_decode (form length : Nat)
    : Spans (decode form length) fun data count =>
        count = data.sizeWithin length ∧ data.form = form ∧ data.Fills length := by
  unfold decode
  split
  · refine .map fun cursor allocations next found => ?_
    obtain ⟨count, passed, filled, rfl⟩ := Spans.times (length / 8) _ _ _ found
    exact ⟨_, passed, Nat.mul_comm .., rfl, filled⟩
  · refine .map fun cursor allocations next found => ?_
    obtain ⟨count, passed, filled, rfl⟩ := Spans.times (length / 16) _ _ _ found
    exact ⟨_, passed, Nat.mul_comm .., rfl, filled⟩
  · refine .map fun cursor data next found => ?_
    obtain ⟨count, passed, filled, rfl⟩ := Spans.take length _ _ _ found
    exact ⟨_, passed, rfl, rfl, filled⟩
  · intro _ _ _ failed
    cases failed

end FileData

namespace FileEntry

/-- The extended attributes and the data of a file entry are as long as their lengths say. -/
structure HasCounts (entry : FileEntry) : Prop where
  extendedAttributes : entry.extendedAttributes.length = entry.extendedAttributesLength.toNat
  form : entry.data.form = entry.icb.allocationForm
  data : entry.data.Fills entry.allocationLength.toNat

theorem spans_decode
    : Spans decode fun entry count =>
        count = 176 + entry.extendedAttributesLength.toNat
            + entry.data.sizeWithin entry.allocationLength.toNat
        ∧ entry.HasCounts := by
  iterate 22 refine .field fun _ => ?_
  refine .bind (.take _) fun extendedAttributes first fitFirst => ?_
  refine .bind (FileData.spans_decode _ _) fun data second fitSecond => .pure ⟨?_, ?_⟩
  · simp only [fitFirst.2, fitSecond.1, Tag.size, EntityId.size, timestampSize]
    omega
  · exact ⟨fitFirst.1, fitSecond.2.1, fitSecond.2.2⟩

end FileEntry

namespace FileIdentifier

/-- The size of a record is that of its fields, rounded up to a multiple of four. -/
theorem recordedSize_eq (identifier : FileIdentifier)
    : identifier.recordedSize
      = (38 + identifier.implementationUseLength.toNat + identifier.nameLength.toNat + 3) / 4 * 4
    := by
  rw [recordedSize, padding, Int.fdiv_eq_ediv_of_nonneg _ (by decide)]
  omega

theorem spans_decode
    : Spans decode fun identifier count =>
        count = identifier.recordedSize
        ∧ identifier.implementationUse.length = identifier.implementationUseLength.toNat := by
  have holdsUse : Spans decode fun identifier _ =>
      identifier.implementationUse.length = identifier.implementationUseLength.toNat := by
    refine .position fun start => ?_
    iterate 7 refine .field fun _ => ?_
    refine .bind (.take _) fun use _ fit => ?_
    refine .field fun name => .position fun stop => .field fun _ => ?_
    exact .pure fit.1
  intro cursor identifier next found
  obtain ⟨_, _, length⟩ := holdsUse cursor identifier next found
  obtain ⟨last, -, rest⟩ := ends_of_decode found
  refine ⟨identifier.recordedSize, ?_, rfl, length⟩
  rw [Cursor.advance, ← last, ← rest]

end FileIdentifier

namespace Descriptor

/-- The number of bytes that a descriptor takes up. -/
def recordedSize : Descriptor → Nat
  | primaryVolume _ | anchorPointer _ | volumePointer _ | implementationUseVolume _
  | partition _ | terminating _ | fileSet _ => 512
  | logicalVolume volume => 440 + 6 * volume.mapCount.toNat
  | unallocatedSpace space => 24 + 8 * space.extentCount.toNat
  | logicalVolumeIntegrity integrity =>
      80 + 8 * integrity.partitionCount.toNat + max 32 integrity.implementationUseLength.toNat
  | fileIdentifier identifier =>
      (38 + identifier.implementationUseLength.toNat + identifier.nameLength.toNat + 3) / 4 * 4
  | fileEntry entry =>
      176 + entry.extendedAttributesLength.toNat
        + entry.data.sizeWithin entry.allocationLength.toNat

/-- Every list of a descriptor is as long as the count or the length recorded for it. -/
def HasCounts : Descriptor → Prop
  | primaryVolume _ | anchorPointer _ | volumePointer _ | implementationUseVolume _
  | partition _ | terminating _ | fileSet _ => True
  | logicalVolume volume => volume.partitionMaps.length = volume.mapCount.toNat
  | unallocatedSpace space => space.extents.length = space.extentCount.toNat
  | logicalVolumeIntegrity integrity => integrity.HasCounts
  | fileIdentifier identifier =>
      identifier.implementationUse.length = identifier.implementationUseLength.toNat
  | fileEntry entry => entry.HasCounts

theorem spans_decodeAs (kind : DescriptorKind)
    : Spans (decodeAs kind) fun descriptor count =>
        count = descriptor.recordedSize ∧ descriptor.kind = kind ∧ descriptor.HasCounts := by
  cases kind
  all_goals refine .map fun cursor value next found => ?_
  case logicalVolume =>
    obtain ⟨count, passed, fit⟩ := LogicalVolume.spans_decode _ _ _ found
    exact ⟨count, passed, fit.1, rfl, fit.2⟩
  case unallocatedSpace =>
    obtain ⟨count, passed, fit⟩ := UnallocatedSpace.spans_decode _ _ _ found
    exact ⟨count, passed, fit.1, rfl, fit.2⟩
  case logicalVolumeIntegrity =>
    obtain ⟨count, passed, fit⟩ := LogicalVolumeIntegrity.spans_decode _ _ _ found
    exact ⟨count, passed, fit.1, rfl, fit.2⟩
  case fileIdentifier =>
    obtain ⟨count, passed, fit⟩ := FileIdentifier.spans_decode _ _ _ found
    exact ⟨count, passed, fit.1.trans value.recordedSize_eq, rfl, fit.2⟩
  case fileEntry =>
    obtain ⟨count, passed, fit⟩ := FileEntry.spans_decode _ _ _ found
    exact ⟨count, passed, fit.1, rfl, fit.2⟩
  all_goals exact ⟨512, Field.advances found, rfl, rfl, trivial⟩

/-- A descriptor is of the kind that the number at its start names, and its tag holds this number.
It ends behind as many bytes as the counts and lengths in it say, and they are those of its lists.
Nothing is turned down because its tag were that of another kind than the expected one.
-/
theorem decode_consumes (cursor : Cursor)
    : (∀ descriptor next, decode cursor = .ok descriptor next
        → DescriptorKind.ofTag? (Tag.number cursor.rest 0 2) = some descriptor.kind
          ∧ descriptor.tag.identifier.toNat = Tag.number cursor.rest 0 2
          ∧ descriptor.tag.identifier = descriptor.kind.tag
          ∧ next = cursor.advance descriptor.recordedSize
          ∧ descriptor.HasCounts)
      ∧ ∀ expected actual next,
          decode cursor ≠ .error (.malformed (.tagMismatch expected actual)) next := by
  constructor
  · intro descriptor next found
    obtain ⟨_, accepted⟩ := tag_of_decode found
    obtain ⟨-, -, tag_eq, -⟩ := Tag.decode_eq_ok_iff.mp accepted
    have identifier : descriptor.tag.identifier.toNat = Tag.number cursor.rest 0 2 := by
      rw [tag_eq]
      exact (Tag.ofBytes_isSpelledBy cursor.rest).identifier
    obtain missing | ⟨_, unknown⟩ | ⟨kind, named, same⟩ := decode_cases cursor
    · cases missing.symm.trans found
    · cases unknown.symm.trans found
    · rw [same] at found
      obtain ⟨_, passed, rfl, rfl, counts⟩ := spans_decodeAs kind _ _ _ found
      have number : Tag.number cursor.rest 0 2 = descriptor.kind.tag.toNat := by
        rw [← named]
        exact (UInt16.toNat_ofNat_of_lt' (Tag.number_lt cursor.rest 0 2)).symm
      refine ⟨?_, identifier, ?_, passed, counts⟩
      · rw [number]
        exact DescriptorKind.ofTag?_tagNumber _
      · rw [← UInt16.toNat_inj, identifier, number]
  · intro expected actual next failed
    cases isTagMismatch_of_decode failed

/-- A descriptor of two unallocated extents, and one byte behind it. -/
def twoExtentsBytes : Bytes :=
  [7, 0, 2, 0, 118, 0, 0, 0, 187, 170, 8, 0, 0, 0, 0, 0, 1, 0, 0, 0, 2, 0, 0, 0,
    0, 8, 0, 0, 1, 0, 0, 0, 0, 16, 0, 0, 2, 0, 0, 0, 9]

def twoExtents : UnallocatedSpace where
  tag := ⟨7, 2, 118, 0, 43707, 8, 0⟩
  sequenceNumber := 1
  extentCount := 2
  extents := [⟨2048, 1⟩, ⟨4096, 2⟩]

theorem decode_consumes_twoExtents
    : decode ⟨5, twoExtentsBytes⟩ = .ok (.unallocatedSpace twoExtents) ⟨45, [9]⟩
      ∧ DescriptorKind.ofTag? 7 = some .unallocatedSpace
      ∧ Cursor.mk 45 [9]
        = Cursor.advance ⟨5, twoExtentsBytes⟩ (recordedSize (.unallocatedSpace twoExtents))
      ∧ HasCounts (.unallocatedSpace twoExtents) := by
  have found : decode ⟨5, twoExtentsBytes⟩ = .ok (.unallocatedSpace twoExtents) ⟨45, [9]⟩ := by
    rfl
  obtain ⟨kind, -, -, passed, counts⟩ := (decode_consumes ⟨5, twoExtentsBytes⟩).1 _ _ found
  exact ⟨found, kind, passed, counts⟩

end Descriptor

end DiscVolume
