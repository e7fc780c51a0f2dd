import DiscVolume.Proofs.Cursor.Templates
import DiscVolume.Proofs.Descriptor.Tag

/-! Tags as they are recorded in front of a body. The check values of a tag are those of its own
bytes and of the bytes of the body that it covers, and a tag with these values is read back.
-/

namespace DiscVolume.Tag

open Decoder Sequencing

/-- A seal covers what it covers whatever follows. -/
theorem IsSealed.append {raw following : Bytes} (isSealed : IsSealed raw following) (rest : Bytes)
    : IsSealed raw (following ++ rest) := by
  refine { isSealed with covered := ?_, crc_eq := ?_ }
  · exact Nat.le_trans isSealed.covered (by simp)
  · rw [List.take_append_of_le_length isSealed.covered]
    exact isSealed.crc_eq

/-- A sealed tag is passed over, whatever follows the body that it covers. -/
theorem decode_of_isSealed {raw body : Bytes} (length : raw.length = size)
    (isSealed : IsSealed raw body) (offset : Nat) (rest : Bytes)
    : decode ⟨offset, raw ++ body ++ rest⟩
      = .ok (ofBytes raw) ⟨offset + raw.length, body ++ rest⟩ := by
  have whole : (raw ++ body ++ rest).take size = raw := by
    rw [List.append_assoc, ← length, List.take_left]
  have behind : (raw ++ body ++ rest).drop size = body ++ rest := by
    rw [List.append_assoc, ← length, List.drop_left]
  refine decode_eq_ok_iff.mpr ⟨?_, ?_, ?_, ?_⟩
  · simp only [Cursor.remaining, List.length_append]
    omega
  · rw [whole, behind]
    exact isSealed.append rest
  · rw [whole]
  · rw [Cursor.advance, behind, length]

/-- A sealed tag of the expected kind is passed over, whatever follows the body that it covers. -/
theorem expect_eq_ok {kind : DescriptorKind} {raw body : Bytes} (length : raw.length = size)
    (isSealed : IsSealed raw body) (named : (ofBytes raw).identifier = kind.tag) (offset : Nat)
    (rest : Bytes)
    : expect kind ⟨offset, raw ++ body ++ rest⟩
      = .ok (ofBytes raw) ⟨offset + raw.length, body ++ rest⟩ := by
  rw [expect, bind_of_ok (decode_of_isSealed length isSealed offset rest),
    bind_of_ok (demand_of_true (by simpa using named))]
  rfl

/-- A sealed tag of the expected kind is read, and the body that it covers after it. -/
theorem reads_expect {kind : DescriptorKind} {others : Tag → Decoder β} {offset : Nat}
    {raw body : Bytes} {value : β} (length : raw.length = size) (isSealed : IsSealed raw body)
    (named : (ofBytes raw).identifier = kind.tag)
    (tail : Reads (others (ofBytes raw)) (offset + raw.length) body value)
    : Reads (expect kind >>= others) offset (raw ++ body) value := by
  intro rest
  rw [bind_of_ok (expect_eq_ok length isSealed named offset rest), tail rest, List.length_append,
    Nat.add_assoc]

/-- The sixteen bytes of a tag. -/
def bytes (tag : Tag) : Bytes :=
  [Bytes.ofNat 2 tag.identifier.toNat, Bytes.ofNat 2 tag.version.toNat,
    Bytes.ofNat 1 tag.checksum.toNat, [0], Bytes.ofNat 2 tag.serialNumber.toNat,
    Bytes.ofNat 2 tag.crc.toNat, Bytes.ofNat 2 tag.crcLength.toNat,
    Bytes.ofNat 4 tag.location.toNat].flatten

@[simp]
theorem length_bytes (tag : Tag) : tag.bytes.length = size := rfl

theorem reserved_bytes (tag : Tag) : reserved tag.bytes = 0 := rfl

/-- The bytes of a tag spell its fields. -/
theorem ofBytes_bytes (tag : Tag) : ofBytes tag.bytes = tag := by
  -- Each field starts where the fields in front of it end.
  have places : field tag.bytes 0 2 = Bytes.ofNat 2 tag.identifier.toNat
      ∧ field tag.bytes 2 2 = Bytes.ofNat 2 tag.version.toNat
      ∧ field tag.bytes 4 1 = Bytes.ofNat 1 tag.checksum.toNat
      ∧ field tag.bytes 6 2 = Bytes.ofNat 2 tag.serialNumber.toNat
      ∧ field tag.bytes 8 2 = Bytes.ofNat 2 tag.crc.toNat
      ∧ field tag.bytes 10 2 = Bytes.ofNat 2 tag.crcLength.toNat
      ∧ field tag.bytes 12 4 = Bytes.ofNat 4 tag.location.toNat :=
    ⟨rfl, rfl, rfl, rfl, rfl, rfl, rfl⟩
  obtain ⟨identifier, version, checksum, serialNumber, crc, crcLength, location⟩ := places
  rw [ofBytes, identifier, version, checksum, serialNumber, crc, crcLength, location]
  simp [Bytes.littleEndian_ofNat]

/-- Only the byte that holds the sum changes with the sum. -/
theorem bytes_checksum (tag : Tag) (checksum : UInt8)
    : { tag with checksum }.bytes = tag.bytes.set TagChecksum.place checksum := by
  have one : Bytes.ofNat 1 checksum.toNat = [checksum] := by
    rw [Bytes.ofNat, Bytes.ofNat, UInt8.ofNat_toNat]
  rw [bytes, one]
  rfl

/-- The tag with the check value of the bytes that it covers of a body, and then with the sum of
its own bytes.
-/
def stamped (tag : Tag) (body : Bytes) : Tag :=
  let covering := { tag with crc := Crc16.ofBytes (body.take tag.crcLength.toNat) }
  { covering with checksum := TagChecksum.ofTag covering.bytes }

/-- A tag of a kind vouches for a body. -/
structure Heads (tag : Tag) (kind : DescriptorKind) (body : Bytes) : Prop where
  named : tag.identifier = kind.tag
  isSealed : IsSealed tag.bytes body

/-- A stamped tag is sealed over the body that it is stamped with. -/
theorem isSealed_stamped {tag : Tag} {body : Bytes} (known : tag.version = 2 ∨ tag.version = 3)
    (covered : tag.crcLength.toNat ≤ body.length)
    : IsSealed (tag.stamped body).bytes body := by
  have spelled := ofBytes_bytes (tag.stamped body)
  refine ⟨reserved_bytes _, ?_, ?_, ?_, ?_⟩
  · rw [spelled, stamped, bytes_checksum, TagChecksum.ofTag_set_place (length_bytes _)]
  · rw [spelled]
    exact known
  · rw [spelled]
    exact covered
  · rw [spelled]
    rfl

/-- A stamped tag vouches for the body that it is stamped with. -/
theorem heads_stamped {tag : Tag} {kind : DescriptorKind} {body : Bytes}
    (named : tag.identifier = kind.tag) (known : tag.version = 2 ∨ tag.version = 3)
    (covered : tag.crcLength.toNat ≤ body.length)
    : (tag.stamped body).Heads kind body where
  named := named
  isSealed := isSealed_stamped known covered

/-- Behind a tag that vouches for it, a body is read. -/
theorem Heads.reads {tag : Tag} {kind : DescriptorKind} {template : Template}
    {background : Nat → UInt8} {others : Tag → Decoder β} {value : β}
    (heads : tag.Heads kind (template.filled background))
    (tail : Recovers (others tag) template value) (offset : Nat)
    : Reads (expect kind >>= others) offset (tag.bytes ++ template.filled background) value := by
  have spelled := ofBytes_bytes tag
  refine reads_expect (length_bytes tag) heads.isSealed ?_ ?_
  · rw [spelled, heads.named]
  · rw [spelled]
    exact tail background _

end DiscVolume.Tag
