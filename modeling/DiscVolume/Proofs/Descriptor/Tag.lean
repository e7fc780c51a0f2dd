import DiscVolume.Descriptor.Tag
import DiscVolume.Proofs.Cursor.Steps

/-! When a tag is accepted. A tag of sixteen bytes and the bytes behind it are either sealed, and
then the tag is the one its fields spell, or it is turned down by the first check it fails. The
byte sum leaves no single byte of a sealed tag to be replaced.
-/

namespace DiscVolume

namespace TagChecksum

theorem foldl_add (bytes : Bytes) (first second : UInt8)
    : bytes.foldl (· + ·) (first + second) = first + bytes.foldl (· + ·) second :=
  List.foldl_assoc

/-- Replacing a byte moves the sum of all bytes by the difference, by induction on the bytes in
front of it.
-/
theorem sum_set {bytes : Bytes} {place : Nat} {former : UInt8} (byte : UInt8) (start : UInt8)
    (h : bytes[place]? = some former)
    : (bytes.set place byte).foldl (· + ·) start + former
      = bytes.foldl (· + ·) start + byte := by
  induction bytes generalizing place start with
  | nil => simp at h
  | cons head rest ih =>
      cases place with
      | zero =>
          obtain rfl : head = former := by simpa using h
          rw [List.set_cons_zero, List.foldl_cons, List.foldl_cons, UInt8.add_comm start byte,
            UInt8.add_comm start head, foldl_add, foldl_add]
          ac_rfl
      | succ place => exact ih (start + head) h

/-- The byte that holds the sum does not change the sum. -/
theorem ofTag_set_place {tag : Bytes} (length : tag.length = coverage) (byte : UInt8)
    : ofTag (tag.set place byte) = ofTag tag := by
  have inside : place < tag.length := by rw [length]; decide
  have whole : tag.take coverage = tag := List.take_of_length_le (Nat.le_of_eq length)
  have replaced : (tag.set place byte).take coverage = tag.set place byte :=
    List.take_of_length_le (by simp [length])
  have former : tag[place]? = some tag[place] := List.getElem?_eq_getElem inside
  have moved := sum_set byte 0 former
  have same : (tag.set place byte).getD place 0 = byte := by
    simp [List.getD_eq_getElem?_getD, inside]
  have before : tag.getD place 0 = tag[place] := by
    simp [List.getD_eq_getElem?_getD, inside]
  -- The byte at the place is taken out of the sum of all, so both sums are of the other bytes.
  rw [ofTag, ofTag, whole, replaced, same, before]
  grind

/-- Any other byte that is replaced changes the sum. -/
theorem ofTag_set_ne {tag : Bytes} {index : Nat} {byte : UInt8}
    (length : tag.length = coverage) (elsewhere : index ≠ place) (inside : index < tag.length)
    (differs : tag[index]? ≠ some byte)
    : ofTag (tag.set index byte) ≠ ofTag tag := by
  intro equal
  have whole : tag.take coverage = tag := List.take_of_length_le (Nat.le_of_eq length)
  have replaced : (tag.set index byte).take coverage = tag.set index byte :=
    List.take_of_length_le (by simp [length])
  have former : tag[index]? = some tag[index] := List.getElem?_eq_getElem inside
  have moved := sum_set byte 0 former
  have kept : (tag.set index byte).getD place 0 = tag.getD place 0 := by
    simp [List.getD_eq_getElem?_getD, List.getElem?_set_ne elsewhere]
  rw [ofTag, ofTag, whole, replaced, kept] at equal
  have same : tag[index] = byte := by grind
  exact differs (same ▸ former)

end TagChecksum

namespace Tag

open Decoder Sequencing

/-- The bytes of a field. -/
def field (raw : Bytes) (start width : Nat) : Bytes := (raw.drop start).take width

/-- The tag whose fields sixteen bytes spell. -/
def ofBytes (raw : Bytes) : Tag where
  identifier := .ofNat (Bytes.littleEndian (field raw 0 2))
  version := .ofNat (Bytes.littleEndian (field raw 2 2))
  checksum := .ofNat (Bytes.littleEndian (field raw 4 1))
  serialNumber := .ofNat (Bytes.littleEndian (field raw 6 2))
  crc := .ofNat (Bytes.littleEndian (field raw 8 2))
  crcLength := .ofNat (Bytes.littleEndian (field raw 10 2))
  location := .ofNat (Bytes.littleEndian (field raw 12 4))

/-- The byte that has to be zero. -/
def reserved (raw : Bytes) : UInt8 := .ofNat (Bytes.littleEndian (field raw 5 1))

/-- The sixteen bytes of a tag vouch for themselves and for the bytes that follow them. -/
structure IsSealed (raw following : Bytes) : Prop where
  reserved_eq : reserved raw = 0
  checksum_eq : TagChecksum.ofTag raw = (ofBytes raw).checksum
  version_eq : (ofBytes raw).version = 2 ∨ (ofBytes raw).version = 3
  covered : (ofBytes raw).crcLength.toNat ≤ following.length
  crc_eq : (ofBytes raw).crc = Crc16.ofBytes (following.take (ofBytes raw).crcLength.toNat)

/-- The checks that a tag has to pass, at the end of its sixteen bytes. -/
def verify (raw : Bytes) : Decoder Tag := do
  demand (reserved raw = 0) .tagReserved
  demand (TagChecksum.ofTag raw = (ofBytes raw).checksum) .tagChecksum
  demand ((ofBytes raw).version = 2 || (ofBytes raw).version = 3) .tagVersion
  let body ← peek (ofBytes raw).crcLength.toNat
  demand ((ofBytes raw).crc = Crc16.ofBytes body) .tagCrc
  return ofBytes raw

variable {cursor next : Cursor} {raw : Bytes}

/-- A field of the tag at a cursor is found by passing over what is in front of it. -/
theorem field_eq {start width : Nat} (bytes : Bytes) (h : start + width ≤ size)
    : field (bytes.take size) start width = (bytes.drop start).take width := by
  rw [field, List.drop_take, List.take_take, Nat.min_eq_left (by omega)]

/-- Reading a tag is passing over its bytes and checking them. -/
theorem decode_eq_verify (h : size ≤ cursor.remaining)
    : decode cursor = verify (cursor.rest.take size) (cursor.advance size) := by
  have wide : 16 ≤ cursor.remaining := h
  -- Each field is read where the one before it ended, with enough left of the sixteen bytes.
  rw [decode, bind_of_ok (peek_eq_ok h), bind_of_ok (uint16_eq_ok (by omega)),
    bind_of_ok (uint16_eq_ok (by rw [Cursor.remaining_advance]; omega)),
    bind_of_ok (uint8_eq_ok (by simp only [Cursor.remaining_advance]; omega)),
    bind_of_ok (uint8_eq_ok (by simp only [Cursor.remaining_advance]; omega)),
    bind_of_ok (uint16_eq_ok (by simp only [Cursor.remaining_advance]; omega)),
    bind_of_ok (uint16_eq_ok (by simp only [Cursor.remaining_advance]; omega)),
    bind_of_ok (uint16_eq_ok (by simp only [Cursor.remaining_advance]; omega)),
    bind_of_ok (uint32_eq_ok (by simp only [Cursor.remaining_advance]; omega))]
  simp (disch := decide) only [verify, ofBytes, reserved, field_eq, Cursor.advance_advance,
    Cursor.rest_advance, List.drop_zero, Nat.reduceAdd]
  rfl

/-- A tag passes the checks just when it is sealed. -/
theorem verify_eq_ok_iff {tag : Tag}
    : verify raw cursor = .ok tag next
      ↔ IsSealed raw cursor.rest ∧ tag = ofBytes raw ∧ next = cursor := by
  constructor
  · intro accepted
    obtain ⟨_, _, first, afterReserved⟩ := bind_eq_ok.mp accepted
    obtain ⟨reserved_eq, rfl⟩ := demand_eq_ok first
    obtain ⟨_, _, second, afterChecksum⟩ := bind_eq_ok.mp afterReserved
    obtain ⟨checksum_eq, rfl⟩ := demand_eq_ok second
    obtain ⟨_, _, third, afterVersion⟩ := bind_eq_ok.mp afterChecksum
    obtain ⟨version_eq, rfl⟩ := demand_eq_ok third
    obtain ⟨body, _, fourth, afterBody⟩ := bind_eq_ok.mp afterVersion
    obtain ⟨covered, rfl, rfl⟩ := le_remaining_of_peek fourth
    obtain ⟨_, _, fifth, afterCrc⟩ := bind_eq_ok.mp afterBody
    obtain ⟨crc_eq, rfl⟩ := demand_eq_ok fifth
    cases afterCrc
    refine ⟨?_, rfl, rfl⟩
    exact {
      reserved_eq := by simpa using reserved_eq
      checksum_eq := by simpa using checksum_eq
      version_eq := by simpa using version_eq
      covered := covered
      crc_eq := by simpa using crc_eq
    }
  · rintro ⟨isSealed, rfl, rfl⟩
    rw [verify, bind_of_ok (demand_of_true (by simpa using isSealed.reserved_eq)),
      bind_of_ok (demand_of_true (by simpa using isSealed.checksum_eq)),
      bind_of_ok (demand_of_true (by simpa using isSealed.version_eq)),
      bind_of_ok (peek_eq_ok isSealed.covered),
      bind_of_ok (demand_of_true (by simpa using isSealed.crc_eq))]
    rfl

/-- A tag is read just when it is there and sealed. -/
theorem decode_eq_ok_iff {tag : Tag}
    : decode cursor = .ok tag next
      ↔ size ≤ cursor.remaining
        ∧ IsSealed (cursor.rest.take size) (cursor.rest.drop size)
        ∧ tag = ofBytes (cursor.rest.take size)
        ∧ next = cursor.advance size := by
  constructor
  · intro accepted
    have present : size ≤ cursor.remaining := by
      obtain ⟨_, _, first, -⟩ := bind_eq_ok.mp accepted
      exact (le_remaining_of_peek first).1
    rw [decode_eq_verify present] at accepted
    exact ⟨present, verify_eq_ok_iff.mp accepted⟩
  · rintro ⟨present, isSealed⟩
    rw [decode_eq_verify present]
    exact verify_eq_ok_iff.mpr isSealed

/-- A tag whose reserved byte or sum is wrong is malformed. -/
theorem verify_malformed
    (h : reserved raw = 0 → TagChecksum.ofTag raw ≠ (ofBytes raw).checksum)
    : ∃ defect, verify raw cursor = .error (.malformed defect) cursor := by
  by_cases clear : reserved raw = 0
  · refine ⟨.tagChecksum, ?_⟩
    rw [verify, bind_of_ok (demand_of_true (by simpa using clear))]
    exact bind_of_error (demand_of_false (by simpa using h clear))
  · exact ⟨.tagReserved, bind_of_error (demand_of_false (by simpa using clear))⟩

/-- A sealed tag does not vouch for a body with another check value. -/
theorem verify_crc_malformed {following : Bytes} (isSealed : IsSealed raw following)
    (covered : (ofBytes raw).crcLength.toNat ≤ cursor.remaining)
    (differs : Crc16.ofBytes (cursor.rest.take (ofBytes raw).crcLength.toNat)
      ≠ (ofBytes raw).crc)
    : verify raw cursor = .error (.malformed .tagCrc) cursor := by
  rw [verify, bind_of_ok (demand_of_true (by simpa using isSealed.reserved_eq)),
    bind_of_ok (demand_of_true (by simpa using isSealed.checksum_eq)),
    bind_of_ok (demand_of_true (by simpa using isSealed.version_eq)),
    bind_of_ok (peek_eq_ok covered)]
  exact bind_of_error (demand_of_false (by simpa using differs.symm))

/-- The recorded sum is the byte at its place. -/
theorem checksum_ofBytes (length : raw.length = size)
    : (ofBytes raw).checksum = raw.getD TagChecksum.place 0 := by
  have inside : 4 < raw.length := by rw [length]; decide
  have one : (raw.drop 4).take 1 = [raw[4]] := by
    rw [List.take_one, List.head?_drop, List.getElem?_eq_getElem inside]
    rfl
  simp [ofBytes, field, one, Bytes.littleEndian, TagChecksum.place, List.getD_eq_getElem?_getD,
    inside]

/-- No single byte of a sealed tag can be replaced: the byte that holds the sum no longer holds
it, and any other byte moves the sum away from it.
-/
theorem checksum_ne_of_set {following : Bytes} {index : Nat} {byte : UInt8}
    (length : raw.length = size) (isSealed : IsSealed raw following) (inside : index < size)
    (differs : raw[index]? ≠ some byte)
    : TagChecksum.ofTag (raw.set index byte) ≠ (ofBytes (raw.set index byte)).checksum := by
  have former := isSealed.checksum_eq
  rw [checksum_ofBytes length] at former
  rw [checksum_ofBytes (by rw [List.length_set, length])]
  rw [← length] at inside
  by_cases place : index = TagChecksum.place
  · -- The sum is what it was, but another byte now stands for it.
    subst place
    rw [TagChecksum.ofTag_set_place length, former]
    simpa [List.getD_eq_getElem?_getD, inside] using differs
  · -- The sum moves, and the byte that stands for it does not.
    have kept : (raw.set index byte).getD TagChecksum.place 0 = raw.getD TagChecksum.place 0 := by
      simp [List.getD_eq_getElem?_getD, List.getElem?_set_ne place]
    rw [kept, ← former]
    exact TagChecksum.ofTag_set_ne length place inside differs

end Tag

end DiscVolume
