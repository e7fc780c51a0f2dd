import DiscVolume.Proofs.Cursor.Confined
import DiscVolume.Proofs.Cursor.Relocation
import DiscVolume.Proofs.Directory.Spelling

/-! How far the records of a directory are looked at. A record ends where its lengths and the filler
behind it say, and its tag may cover more than that. Bytes that come after all of this make no
difference, so the records are found again where such bytes are put behind them or cut off.
-/

namespace DiscVolume

open Decoder Sequencing

namespace FileIdentifier

/-- The number of bytes of a record, with the filler up to the next multiple of four. -/
def recordedSize (identifier : FileIdentifier) : Nat :=
  38 + identifier.implementationUseLength.toNat + identifier.nameLength.toNat
    + (padding (38 + identifier.implementationUseLength.toNat + identifier.nameLength.toNat)).toNat

/-- How far a record is looked at from its start: all of its bytes, and those that its tag covers.
-/
def reach (identifier : FileIdentifier) : Nat :=
  max identifier.recordedSize (Tag.size + identifier.tag.crcLength.toNat)

/-- The fields of a record behind its tag. -/
def fields (start : Nat) (tag : Tag) : Decoder FileIdentifier := do
  let version ← uint16
  let characteristics ← uint8
  let nameLength ← uint8
  let icb ← LongAllocation.decode
  let implementationUseLength ← uint16
  let implementationUse ← take implementationUseLength.toNat
  let name ← dcharacters nameLength.toNat
  let stop ← position
  skip (padding (stop - start)).toNat
  return {
    tag, version, characteristics, nameLength, icb, implementationUseLength, implementationUse,
    name
  }

theorem decode_eq
    : decode = (do
        let start ← position
        let tag ← Tag.expect .fileIdentifier
        require 4
        fields start tag) :=
  rfl

/-- The fields of a record end where their lengths say, with the filler counted from the start. -/
theorem offset_of_fields {start : Nat} {tag : Tag} {cursor next : Cursor}
    {identifier : FileIdentifier} (found : fields start tag cursor = .ok identifier next)
    : identifier.tag = tag
      ∧ ∃ stop : Nat,
          stop = cursor.offset + 22 + identifier.implementationUseLength.toNat
            + identifier.nameLength.toNat
          ∧ next.offset = stop + (padding (stop - start)).toNat := by
  unfold fields at found
  obtain ⟨version, _, first, found⟩ := bind_eq_ok.mp found
  obtain ⟨characteristics, _, second, found⟩ := bind_eq_ok.mp found
  obtain ⟨nameLength, _, third, found⟩ := bind_eq_ok.mp found
  obtain ⟨icb, _, fourth, found⟩ := bind_eq_ok.mp found
  obtain ⟨useLength, _, fifth, found⟩ := bind_eq_ok.mp found
  obtain ⟨use, _, sixth, found⟩ := bind_eq_ok.mp found
  obtain ⟨name, stop, seventh, found⟩ := bind_eq_ok.mp found
  obtain ⟨_, _, looked, found⟩ := bind_eq_ok.mp found
  obtain ⟨_, _, skipped, returned⟩ := bind_eq_ok.mp found
  cases looked
  cases returned
  have two := Field.offset_eq first
  have one := Field.offset_eq second
  have another := Field.offset_eq third
  have sixteen := Field.offset_eq fourth
  have lengthField := Field.offset_eq fifth
  have useBytes := Field.offset_eq sixth
  have nameBytes := Field.offset_eq seventh
  exact ⟨rfl, stop.offset, by dsimp only; omega, Field.offset_eq skipped⟩

/-- The fields are spelled by the bytes that they take up. -/
instance (start : Nat) (tag : Tag) : Confined (require 4 >>= fun _ => fields start tag) := by
  have confined : Confined (fields start tag) := by
    unfold fields
    infer_instance
  refine Confined.require (fun cursor identifier next found => ?_)
  obtain ⟨-, stop, rfl, ended⟩ := offset_of_fields found
  omega

end FileIdentifier

namespace Tag

/-- A seal stays whole where all that it covers is there. -/
theorem IsSealed.of_append {raw following slack : Bytes}
    (isSealed : IsSealed raw (following ++ slack))
    (covered : (ofBytes raw).crcLength.toNat ≤ following.length)
    : IsSealed raw following := by
  refine { isSealed with covered, crc_eq := ?_ }
  rw [← List.take_append_of_le_length covered]
  exact isSealed.crc_eq

end Tag

namespace FileIdentifier

/-- What a record is made of: a tag of its kind, sealed over what comes after it, and its fields. -/
theorem decode_eq_ok_iff {offset last : Nat} {bytes rest : Bytes} {identifier : FileIdentifier}
    : decode ⟨offset, bytes⟩ = .ok identifier ⟨last, rest⟩
      ↔ ∃ raw own, bytes = raw ++ (own ++ rest) ∧ raw.length = Tag.size
          ∧ last = offset + Tag.size + own.length
          ∧ Tag.IsSealed raw (own ++ rest)
          ∧ (Tag.ofBytes raw).identifier = DescriptorKind.fileIdentifier.tag
          ∧ Reads (require 4 >>= fun _ => fields offset (Tag.ofBytes raw)) (offset + Tag.size) own
              identifier := by
  rw [decode_eq]
  constructor
  · intro found
    obtain ⟨_, _, looked, found⟩ := bind_eq_ok.mp found
    cases looked
    obtain ⟨tag, middle, expected, found⟩ := bind_eq_ok.mp found
    obtain ⟨_, _, accepted, named⟩ := bind_eq_ok.mp expected
    obtain ⟨_, _, demanded, returned⟩ := bind_eq_ok.mp named
    obtain ⟨holds, rfl⟩ := demand_eq_ok demanded
    cases returned
    obtain ⟨present, isSealed, rfl, rfl⟩ := Tag.decode_eq_ok_iff.mp accepted
    obtain ⟨own, rest_eq, offset_eq, reads⟩ := Confined.exists_reads found
    have behind : bytes.drop Tag.size = own ++ rest := rest_eq
    refine ⟨bytes.take Tag.size, own, ?_, List.length_take_of_le present, offset_eq,
      behind ▸ isSealed, by simpa using holds, reads⟩
    rw [← behind, List.take_append_drop]
  · rintro ⟨raw, own, rfl, length, rfl, isSealed, named, reads⟩
    have front : (raw ++ (own ++ rest)).take Tag.size = raw := by rw [← length, List.take_left]
    have behind : (raw ++ (own ++ rest)).drop Tag.size = own ++ rest := by
      rw [← length, List.drop_left]
    have accepted : Tag.decode ⟨offset, raw ++ (own ++ rest)⟩
        = .ok (Tag.ofBytes raw) ⟨offset + Tag.size, own ++ rest⟩ := by
      refine Tag.decode_eq_ok_iff.mpr ⟨?_, ?_, by rw [front], by rw [Cursor.advance, behind]⟩
      · simp only [Cursor.remaining, List.length_append]
        omega
      · rwa [front, behind]
    have expected : Tag.expect .fileIdentifier ⟨offset, raw ++ (own ++ rest)⟩
        = .ok (Tag.ofBytes raw) ⟨offset + Tag.size, own ++ rest⟩ := by
      rw [Tag.expect, bind_of_ok accepted, bind_of_ok (demand_of_true (by simpa using named))]
      rfl
    refine (bind_of_ok rfl).trans ((bind_of_ok expected).trans ?_)
    exact reads rest

/-- The bytes behind the tag are those that the size of the record leaves for them. -/
theorem length_of_reads_fields {offset : Nat} {tag : Tag} {own : Bytes}
    {identifier : FileIdentifier}
    (reads : Reads (require 4 >>= fun _ => fields offset tag) (offset + Tag.size) own identifier)
    : identifier.tag = tag ∧ Tag.size + own.length = identifier.recordedSize := by
  have found := reads []
  obtain ⟨_, middle, required, behind⟩ := bind_eq_ok.mp found
  obtain rfl := (le_remaining_of_require required).2
  obtain ⟨same, stop, rfl, ended⟩ := offset_of_fields behind
  refine ⟨same, ?_⟩
  have distance : ((offset + Tag.size + 22 + identifier.implementationUseLength.toNat
      + identifier.nameLength.toNat : Nat) : Int) - offset
      = 38 + identifier.implementationUseLength.toNat + identifier.nameLength.toNat := by
    rw [Tag.size]
    omega
  rw [distance] at ended
  rw [recordedSize]
  simp only [Tag.size] at *
  omega

/-- A record is read from a directory alone just where it is read with slack behind the directory
and does not go on there.
-/
theorem decode_append_iff {offset last : Nat} {bytes rest : Bytes} {identifier : FileIdentifier}
    (slack : Bytes)
    : decode ⟨offset, bytes⟩ = .ok identifier ⟨last, rest⟩
      ↔ decode ⟨offset, bytes ++ slack⟩ = .ok identifier ⟨last, rest ++ slack⟩
        ∧ identifier.reach ≤ bytes.length := by
  rw [decode_eq_ok_iff, decode_eq_ok_iff]
  constructor
  · rintro ⟨raw, own, rfl, length, place, isSealed, named, reads⟩
    obtain ⟨tag_eq, size_eq⟩ := length_of_reads_fields reads
    have covered := isSealed.covered
    refine ⟨⟨raw, own, by simp, length, place, ?_, named, reads⟩, ?_⟩
    · rw [← List.append_assoc]
      exact isSealed.append slack
    · rw [reach, ← size_eq, tag_eq]
      simp only [List.length_append, length] at covered ⊢
      omega
  · rintro ⟨⟨raw, own, spelled, length, place, isSealed, named, reads⟩, within⟩
    obtain ⟨tag_eq, size_eq⟩ := length_of_reads_fields reads
    rw [reach, ← size_eq, tag_eq] at within
    have padded : bytes ++ slack = raw ++ (own ++ rest) ++ slack := by
      rw [spelled]
      simp only [List.append_assoc]
    obtain rfl := List.append_cancel_right padded
    refine ⟨raw, own, rfl, length, place, ?_, named, reads⟩
    rw [← List.append_assoc] at isSealed
    refine isSealed.of_append ?_
    simp only [List.length_append, length] at within ⊢
    omega

/-- A record ends where its size says. -/
theorem ends_of_decode {offset last : Nat} {bytes rest : Bytes} {identifier : FileIdentifier}
    (found : decode ⟨offset, bytes⟩ = .ok identifier ⟨last, rest⟩)
    : last = offset + identifier.recordedSize ∧ identifier.recordedSize ≤ bytes.length
      ∧ rest = bytes.drop identifier.recordedSize := by
  obtain ⟨raw, own, rfl, length, rfl, -, -, reads⟩ := decode_eq_ok_iff.mp found
  obtain ⟨-, size_eq⟩ := length_of_reads_fields reads
  have front : (raw ++ own).length = identifier.recordedSize := by
    rw [List.length_append, length, size_eq]
  refine ⟨by rw [← size_eq, Nat.add_assoc], ?_, ?_⟩
  · simp only [← front, List.length_append]
    omega
  · rw [← front, ← List.append_assoc, List.drop_left]

end FileIdentifier

namespace Directory

open FileIdentifier

/-- The records of a directory are the file identifiers. -/
theorem record_eq_ok_iff {cursor next : Cursor} {identifier : FileIdentifier}
    : record cursor = .ok identifier next ↔ FileIdentifier.decode cursor = .ok identifier next := by
  constructor
  · intro found
    obtain ⟨descriptor, _, tagged, selected⟩ := bind_eq_ok.mp found
    obtain ⟨_, _, decoded, demanded⟩ := bind_eq_ok.mp tagged
    obtain ⟨_, _, demanded, returned⟩ := bind_eq_ok.mp demanded
    obtain ⟨-, rfl⟩ := demand_eq_ok demanded
    cases returned
    cases descriptor with
    | fileIdentifier other =>
        cases selected
        exact Descriptor.decode_eq_fileIdentifier decoded
    | _ => cases selected
  · intro found
    obtain ⟨raw, own, spelled, length, -, -, named, -⟩ := decode_eq_ok_iff.mp found
    have start : cursor.rest.take Tag.size = raw := by rw [spelled, ← length, List.take_left]
    have present : Tag.size ≤ cursor.remaining := by
      rw [Cursor.remaining, spelled, List.length_append]
      omega
    have decoded : Descriptor.decode cursor = .ok (.fileIdentifier identifier) next := by
      rw [← start] at named
      rw [Descriptor.decode_eq_decodeAs present named]
      exact map_eq_ok.mpr ⟨identifier, found, rfl⟩
    have tagged : Descriptor.decodeTagged DescriptorKind.fileIdentifier.tagNumber cursor
        = .ok (.fileIdentifier identifier) next := by
      rw [Descriptor.decodeTagged, bind_of_ok decoded, bind_of_ok (demand_of_true (by rfl))]
      rfl
    rw [record, bind_of_ok tagged]
    rfl

theorem records_of_error {size : Nat} {cursor next : Cursor} {failure : Failure}
    (before : cursor.offset < size) (failed : record cursor = .error failure next)
    : records size cursor = ([], some failure) := by
  rw [records, if_pos before]
  split
  · next same =>
      rw [failed] at same
      cases same
  · next same =>
      rw [failed] at same
      cases same
      rfl

/-- All records have been read where the size is reached. -/
theorem records_eq_nil_iff {size : Nat} {cursor : Cursor}
    : records size cursor = ([], none) ↔ size ≤ cursor.offset := by
  by_cases before : cursor.offset < size
  · refine iff_of_false (fun ended => ?_) (by omega)
    cases result : record cursor with
    | ok identifier next =>
        rw [records_of_ok before result] at ended
        cases ended
    | error failure next =>
        rw [records_of_error before result] at ended
        cases ended
  · rw [records, if_neg before]
    exact iff_of_true rfl (by omega)

/-- All records have been read where the first has been, and the others from its end on. -/
theorem records_eq_cons_iff {size : Nat} {cursor : Cursor} {identifier : FileIdentifier}
    {others : List FileIdentifier}
    : records size cursor = (identifier :: others, none)
      ↔ cursor.offset < size
        ∧ ∃ next, record cursor = .ok identifier next ∧ records size next = (others, none) := by
  constructor
  · intro whole
    by_cases before : cursor.offset < size
    · cases result : record cursor with
      | ok first next =>
          rw [records_of_ok before result, Prod.mk.injEq, List.cons.injEq] at whole
          obtain ⟨⟨rfl, same⟩, ended⟩ := whole
          exact ⟨before, next, rfl, Prod.ext same ended⟩
      | error failure next =>
          rw [records_of_error before result] at whole
          cases whole
    · rw [records, if_neg before] at whole
      cases whole
  · rintro ⟨before, next, found, rest⟩
    rw [records_of_ok before found, rest]

/-- None of the records, which stand one after the other from an offset on, is looked at from a size
on.
-/
def KeepWithin (size : Nat) : Nat → List FileIdentifier → Prop
  | _, [] => True
  | offset, identifier :: others =>
      offset + identifier.reach ≤ size
        ∧ KeepWithin size (offset + identifier.recordedSize) others

instance (size offset : Nat) (identifiers : List FileIdentifier)
    : Decidable (KeepWithin size offset identifiers) :=
  match identifiers with
  | [] => isTrue trivial
  | identifier :: others =>
      have := instDecidableKeepWithin size (offset + identifier.recordedSize) others
      inferInstanceAs (Decidable (_ ∧ _))

/-- Records are read to the end of a directory alone just where they are with slack behind it and
keep within the directory. By induction on the records: each of them ends within it, and there
the others start.
-/
theorem records_append_iff {size offset : Nat} {bytes slack : Bytes}
    {identifiers : List FileIdentifier} (whole : size = offset + bytes.length)
    : records size ⟨offset, bytes⟩ = (identifiers, none)
      ↔ records size ⟨offset, bytes ++ slack⟩ = (identifiers, none)
        ∧ KeepWithin size offset identifiers := by
  induction identifiers generalizing offset bytes with
  | nil => simp only [records_eq_nil_iff, KeepWithin, and_true]
  | cons identifier others ih =>
      rw [records_eq_cons_iff, records_eq_cons_iff, KeepWithin]
      simp only [record_eq_ok_iff]
      constructor
      · rintro ⟨before, ⟨last, rest⟩, found, behind⟩
        obtain ⟨rfl, short, rest_eq⟩ := ends_of_decode found
        obtain ⟨again, within⟩ := (decode_append_iff slack).mp found
        have length : size = offset + identifier.recordedSize + rest.length := by
          rw [rest_eq, List.length_drop]
          omega
        obtain ⟨behind, keep⟩ := (ih length).mp behind
        exact ⟨⟨before, _, again, behind⟩, by omega, keep⟩
      · rintro ⟨⟨before, ⟨last, rest⟩, found, behind⟩, within, keep⟩
        obtain ⟨rfl, -, rfl⟩ := ends_of_decode found
        have short : identifier.recordedSize ≤ bytes.length := by
          have reached := Nat.le_max_left identifier.recordedSize
            (Tag.size + identifier.tag.crcLength.toNat)
          rw [reach] at within
          omega
        rw [List.drop_append_of_le_length short] at found behind
        have length : size = offset + identifier.recordedSize
            + (bytes.drop identifier.recordedSize).length := by
          rw [List.length_drop]
          omega
        exact ⟨before, _, (decode_append_iff slack).mpr ⟨found, by omega⟩,
          (ih length).mpr ⟨behind, keep⟩⟩

end Directory

end DiscVolume
