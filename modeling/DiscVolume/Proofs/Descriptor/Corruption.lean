import DiscVolume.Descriptor
import DiscVolume.Proofs.Checksum.Bursts
import DiscVolume.Proofs.Descriptor.Tag

/-! Damage to a descriptor that is always noticed. Every descriptor is read through its tag, so
whatever its kind, one byte of the tag or two neighbouring bytes of the body it covers cannot be
replaced without the image being turned down.
-/

namespace DiscVolume

open Decoder Sequencing

namespace Tag

variable {cursor next : Cursor} {tag : Tag} {kind : DescriptorKind}

/-- A tag that is not read is not one of the expected kind. -/
theorem expect_of_error {failure : Failure} (h : decode cursor = .error failure next)
    : expect kind cursor = .error failure next :=
  bind_of_error h

/-- An expected tag is read like any other. -/
theorem decode_of_expect (h : expect kind cursor = .ok tag next)
    : decode cursor = .ok tag next := by
  obtain ⟨_, _, head, afterTag⟩ := bind_eq_ok.mp h
  obtain ⟨_, _, second, afterDemand⟩ := bind_eq_ok.mp afterTag
  obtain ⟨-, rfl⟩ := demand_eq_ok second
  cases afterDemand
  exact head

end Tag

namespace Descriptor

variable {cursor next : Cursor} {descriptor : Descriptor}

/-- No kind of descriptor is read where no tag is. -/
theorem decodeAs_of_error {failure : Failure} (kind : DescriptorKind)
    (h : Tag.decode cursor = .error failure next)
    : decodeAs kind cursor = .error failure next := by
  cases kind with
  | fileIdentifier =>
      refine map_of_error ?_
      -- The place of a file identifier is noted before its tag is read.
      have noted : position cursor = .ok cursor.offset cursor := rfl
      rw [FileIdentifier.decode, bind_of_ok noted]
      exact bind_of_error (Tag.expect_of_error h)
  | _ => exact map_of_error (bind_of_error (Tag.expect_of_error h))

/-- What is read behind an expected tag holds the tag that is read. -/
theorem tag_of_map {kind : DescriptorKind} {others : Tag → Decoder α} {make : α → Descriptor}
    (keeps : ∀ tag, Yields (others tag) (fun value => (make value).tag = tag))
    (h : (make <$> (Tag.expect kind >>= others)) cursor = .ok descriptor next)
    : ∃ after, Tag.decode cursor = .ok descriptor.tag after := by
  obtain ⟨value, read, rfl⟩ := map_eq_ok.mp h
  obtain ⟨tag, middle, head, tail⟩ := bind_eq_ok.mp read
  refine ⟨middle, ?_⟩
  rw [keeps tag middle value next tail]
  exact Tag.decode_of_expect head

/-- Whatever its kind, a descriptor holds the tag that is read where it starts. -/
theorem tag_of_decodeAs {kind : DescriptorKind}
    (h : decodeAs kind cursor = .ok descriptor next)
    : ∃ after, Tag.decode cursor = .ok descriptor.tag after := by
  cases kind with
  | fileIdentifier =>
      obtain ⟨value, read, rfl⟩ := map_eq_ok.mp h
      obtain ⟨_, _, noted, others⟩ := bind_eq_ok.mp read
      cases noted
      refine tag_of_map (fun tag => ?_) (map_eq_ok.mpr ⟨value, others, rfl⟩)
      repeat refine yields_bind (fun _ => ?_)
      exact yields_pure rfl
  | _ =>
      -- All fields after the tag are read for their own sake; the tag is handed on to the end.
      refine tag_of_map (fun tag => ?_) h
      repeat refine yields_bind (fun _ => ?_)
      exact yields_pure rfl

/-- A descriptor holds the tag that is read where it starts. -/
theorem tag_of_decode (h : decode cursor = .ok descriptor next)
    : ∃ after, Tag.decode cursor = .ok descriptor.tag after := by
  obtain ⟨_, _, looked, afterLook⟩ := bind_eq_ok.mp h
  obtain ⟨kind, _, chosen, read⟩ := bind_eq_ok.mp afterLook
  obtain rfl := stays_of_peekUInt16 looked
  obtain ⟨-, rfl⟩ := settle_eq_ok.mp chosen
  exact tag_of_decodeAs read

/-- Where a malformed tag stands, the image is turned down: the tag either names no kind, or is
read as that of some kind.
-/
theorem decode_malformed {defect : Defect} (present : Tag.size ≤ cursor.remaining)
    (h : Tag.decode cursor = .error (.malformed defect) next)
    : ∃ defect after, decode cursor = .error (.malformed defect) after := by
  have two : 2 ≤ cursor.remaining := Nat.le_trans (by decide) present
  rw [decode, bind_of_ok (peekUInt16_eq_ok two), kindOf]
  split
  · next kind known =>
      exact ⟨defect, next, decodeAs_of_error kind h⟩
  · next unknown =>
      exact ⟨.unknownTag _, cursor, rfl⟩

/-- What damage makes of a buffer in which a tag starts at a place and covers a number of bytes
behind it: one byte of the tag is replaced by another, or one byte or two neighbouring bytes of
those it covers are replaced, at least one of them by another.
-/
inductive Damages (start covered : Nat) (buffer : Bytes) : Bytes → Prop where
  | tagByte (place : Nat) (byte : UInt8) (inside : place < Tag.size)
      (differs : buffer[start + place]? ≠ some byte)
      : Damages start covered buffer (buffer.set (start + place) byte)
  | bodyByte (place : Nat) (byte : UInt8) (inside : place < covered)
      (differs : buffer[start + Tag.size + place]? ≠ some byte)
      : Damages start covered buffer (buffer.set (start + Tag.size + place) byte)
  | bodyPair (place : Nat) (first second : UInt8) (inside : place + 1 < covered)
      (differs : buffer[start + Tag.size + place]? ≠ some first
        ∨ buffer[start + Tag.size + place + 1]? ≠ some second)
      : Damages start covered buffer
          ((buffer.set (start + Tag.size + place) first).set (start + Tag.size + place + 1) second)

/-- Damage loses no byte and adds none. -/
theorem Damages.length_eq {start covered : Nat} {buffer damaged : Bytes}
    (damage : Damages start covered buffer damaged)
    : damaged.length = buffer.length := by
  cases damage <;> simp

/-- Replacing a byte behind a place is replacing it in what is left from that place. -/
theorem drop_set_add (buffer : Bytes) (start place : Nat) (byte : UInt8)
    : (buffer.set (start + place) byte).drop start = (buffer.drop start).set place byte := by
  rw [List.drop_set, if_neg (by omega), Nat.add_sub_cancel_left]

/-- A tag with one byte replaced is malformed. -/
theorem tag_malformed_of_tagByte {altered : Cursor} {tag : Tag} {place : Nat} {byte : UInt8}
    (accepted : Tag.decode cursor = .ok tag next) (inside : place < Tag.size)
    (differs : cursor.rest[place]? ≠ some byte)
    (replaced : altered.rest = cursor.rest.set place byte)
    : ∃ defect after, Tag.decode altered = .error (.malformed defect) after := by
  obtain ⟨present, isSealed, -, -⟩ := Tag.decode_eq_ok_iff.mp accepted
  have length : (cursor.rest.take Tag.size).length = Tag.size := List.length_take_of_le present
  have raw : altered.rest.take Tag.size = (cursor.rest.take Tag.size).set place byte := by
    rw [replaced, List.take_set]
  have other : (cursor.rest.take Tag.size)[place]? ≠ some byte := by
    rwa [List.getElem?_take_of_lt inside]
  have still : Tag.size ≤ altered.remaining := by
    rwa [Cursor.remaining, replaced, List.length_set]
  have mismatch := Tag.checksum_ne_of_set length isSealed inside other
  rw [Tag.decode_eq_verify still, raw]
  obtain ⟨defect, turned⟩ := Tag.verify_malformed (fun _ => mismatch)
  exact ⟨defect, _, turned⟩

/-- A tag whose body has another check value is malformed. -/
theorem tag_malformed_of_body {altered : Cursor} {tag : Tag}
    (accepted : Tag.decode cursor = .ok tag next)
    (same : altered.rest.take Tag.size = cursor.rest.take Tag.size)
    (length : altered.rest.length = cursor.rest.length)
    (differs : Crc16.ofBytes ((altered.rest.drop Tag.size).take tag.crcLength.toNat)
      ≠ Crc16.ofBytes ((cursor.rest.drop Tag.size).take tag.crcLength.toNat))
    : ∃ defect after, Tag.decode altered = .error (.malformed defect) after := by
  obtain ⟨present, isSealed, rfl, -⟩ := Tag.decode_eq_ok_iff.mp accepted
  have still : Tag.size ≤ altered.remaining := by
    rwa [Cursor.remaining, length]
  rw [Tag.decode_eq_verify still, same]
  refine ⟨.tagCrc, _, Tag.verify_crc_malformed isSealed ?_ ?_⟩
  · have covered := isSealed.covered
    rwa [List.length_drop, ← length, ← Cursor.remaining, ← Cursor.remaining_advance] at covered
  · rw [isSealed.crc_eq]
    exact differs

/-- Damage to a descriptor makes its tag malformed, whether it is done to the tag or to the body.
-/
theorem tag_malformed_of_damages {buffer damaged : Bytes} {start : Nat} {tag : Tag}
    (accepted : Tag.decode ((Cursor.ofBytes buffer).advance start) = .ok tag next)
    (damage : Damages start tag.crcLength.toNat buffer damaged)
    : ∃ defect after,
        Tag.decode ((Cursor.ofBytes damaged).advance start)
        = .error (.malformed defect) after := by
  obtain ⟨-, isSealed, spelled, -⟩ := Tag.decode_eq_ok_iff.mp accepted
  have covered := isSealed.covered
  rw [← spelled, Cursor.rest_advance, List.drop_drop] at covered
  have whole : ((buffer.drop (start + Tag.size)).take tag.crcLength.toNat).length
      = tag.crcLength.toNat :=
    List.length_take_of_le covered
  have length : (damaged.drop start).length = (buffer.drop start).length := by
    rw [List.length_drop, List.length_drop, damage.length_eq]
  -- In the body the tag stays as it is, and with it the bytes that it covers and their check value.
  cases damage with
  | tagByte place byte inside differs =>
      rw [← List.getElem?_drop] at differs
      exact tag_malformed_of_tagByte accepted inside differs (drop_set_add ..)
  | bodyByte place byte inside differs =>
      refine tag_malformed_of_body accepted ?_ length ?_
      · simp only [Cursor.rest_advance, Cursor.ofBytes, Nat.add_assoc, drop_set_add]
        exact List.take_set_of_le (Nat.le_add_right ..)
      · simp only [Cursor.rest_advance, Cursor.ofBytes, List.drop_drop, drop_set_add,
          List.take_set]
        refine Crc16.ofBytes_set_ne (by rwa [whole]) ?_
        rwa [List.getElem?_take_of_lt inside, List.getElem?_drop]
  | bodyPair place first second inside differs =>
      refine tag_malformed_of_body accepted ?_ length ?_
      · simp only [Cursor.rest_advance, Cursor.ofBytes, Nat.add_assoc, drop_set_add]
        rw [List.take_set_of_le (Nat.le_add_right ..), List.take_set_of_le (Nat.le_add_right ..)]
      · simp only [Cursor.rest_advance, Cursor.ofBytes, List.drop_drop, Nat.add_assoc (_ + _),
          drop_set_add, List.take_set]
        refine Crc16.ofBytes_set_set_ne (by rwa [whole]) ?_
        rwa [List.getElem?_take_of_lt (by omega), List.getElem?_take_of_lt inside,
          List.getElem?_drop, List.getElem?_drop]

/-- Damage to a descriptor is always noticed: where a descriptor was read, the image is turned
down once one byte of the tag or two neighbouring bytes of the covered body are replaced.
-/
theorem decode_of_damages {buffer damaged : Bytes} {start : Nat}
    (accepted : decode ((Cursor.ofBytes buffer).advance start) = .ok descriptor next)
    (damage : Damages start descriptor.tag.crcLength.toNat buffer damaged)
    : ∃ defect after,
        decode ((Cursor.ofBytes damaged).advance start) = .error (.malformed defect) after := by
  obtain ⟨_, read⟩ := tag_of_decode accepted
  obtain ⟨defect, after, turned⟩ := tag_malformed_of_damages read damage
  refine decode_malformed ?_ turned
  have present := (Tag.decode_eq_ok_iff.mp read).1
  rw [Cursor.remaining_advance, Cursor.remaining, Cursor.ofBytes] at present ⊢
  rwa [damage.length_eq]

/-- A buffer with an unallocated space descriptor of no extents behind one other byte. -/
def unallocatedSpaceBytes : Bytes :=
  [255, 7, 0, 2, 0, 43, 0, 0, 0, 211, 71, 8, 0, 0, 0, 0, 0, 1, 0, 0, 0, 0, 0, 0, 0]

/-- The same buffer with the sequence number changed in two bytes. -/
def damagedUnallocatedSpaceBytes : Bytes :=
  [255, 7, 0, 2, 0, 43, 0, 0, 0, 211, 71, 8, 0, 0, 0, 0, 0, 2, 3, 0, 0, 0, 0, 0, 0]

def unallocatedSpaceTag : Tag := ⟨7, 2, 43, 0, 18387, 8, 0⟩

set_option maxRecDepth 4000 in
theorem decode_of_damages_unallocatedSpace
    : decode ((Cursor.ofBytes unallocatedSpaceBytes).advance 1)
        = .ok (.unallocatedSpace ⟨unallocatedSpaceTag, 1, 0, []⟩) ⟨25, []⟩
      ∧ Damages 1 8 unallocatedSpaceBytes damagedUnallocatedSpaceBytes
      ∧ ∃ defect after,
          decode ((Cursor.ofBytes damagedUnallocatedSpaceBytes).advance 1)
          = .error (.malformed defect) after := by
  have accepted : decode ((Cursor.ofBytes unallocatedSpaceBytes).advance 1)
      = .ok (.unallocatedSpace ⟨unallocatedSpaceTag, 1, 0, []⟩) ⟨25, []⟩ := by
    rfl
  have damage : Damages 1 8 unallocatedSpaceBytes damagedUnallocatedSpaceBytes :=
    .bodyPair 0 2 3 (by decide) (by decide)
  exact ⟨accepted, damage, decode_of_damages accepted damage⟩

end Descriptor

end DiscVolume
