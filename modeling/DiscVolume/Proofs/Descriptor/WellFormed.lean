import DiscVolume.Proofs.Descriptor.Sealing
import DiscVolume.Proofs.Descriptor.Verdicts

/-! Which bytes are a tag, said of the bytes alone. A well-formed tag is accepted with its seven
fields, whatever stands around it; any other is turned down as part of a bad image. The data are
found to end too early only where the tag is cut short, or where all that it says of itself is right
and the bytes that it covers are cut short.
-/

namespace DiscVolume

open Decoder Sequencing

/-- The sum of bytes as numbers. -/
def Bytes.total : Bytes → Nat
  | [] => 0
  | byte :: rest => byte.toNat + total rest

theorem Bytes.total_append (first second : Bytes)
    : total (first ++ second) = total first + total second := by
  induction first with
  | nil => rw [List.nil_append, total, Nat.zero_add]
  | cons byte rest ih => rw [List.cons_append, total, total, ih, Nat.add_assoc]

namespace TagChecksum

/-- Adding up bytes is adding up numbers modulo 256, by induction on the bytes. -/
theorem toNat_foldl_add (bytes : Bytes) (start : UInt8)
    : (bytes.foldl (· + ·) start).toNat = (start.toNat + bytes.total) % 256 := by
  induction bytes generalizing start with
  | nil =>
      have bound := start.toNat_lt
      simp only [List.foldl_nil, Bytes.total]
      omega
  | cons byte rest ih =>
      rw [List.foldl_cons, ih, Bytes.total, UInt8.toNat_add]
      omega

/-- The sum of a tag is that of the bytes in front of its place and behind it. -/
theorem toNat_ofTag {tag : Bytes} (length : tag.length = coverage)
    : (ofTag tag).toNat
      = Bytes.total (tag.take place ++ tag.drop (place + 1)) % 256 := by
  have inside : place < tag.length := by rw [length]; decide
  have parts : tag = tag.take place ++ tag[place] :: tag.drop (place + 1) := by
    rw [← List.drop_eq_getElem_cons inside, List.take_append_drop]
  have whole : tag.take coverage = tag := List.take_of_length_le (Nat.le_of_eq length)
  have total := congrArg Bytes.total parts
  rw [Bytes.total_append, Bytes.total] at total
  have own : tag.getD place 0 = tag[place] := by
    rw [List.getD_eq_getElem?_getD, List.getElem?_eq_getElem inside, Option.getD_some]
  have bound := tag[place].toNat_lt
  rw [ofTag, whole, own, UInt8.toNat_sub, toNat_foldl_add, UInt8.toNat_zero, total,
    Bytes.total_append]
  omega

end TagChecksum

namespace Tag

/-- The number that some of the bytes spell. -/
def number (bytes : Bytes) (start width : Nat) : Nat := Bytes.littleEndian (field bytes start width)

/-- All that a tag says of itself is right: it has sixteen bytes, the sixth of them is zero, the
fifth holds the sum of the others modulo 256, and the version is a known one.
-/
structure IsSound (bytes : Bytes) : Prop where
  complete : size ≤ bytes.length
  reserved : bytes[5]? = some 0
  checksum :
    bytes[4]?.map UInt8.toNat
      = some (Bytes.total (field bytes 0 4 ++ field bytes 5 11) % 256)
  version : number bytes 2 2 = 2 ∨ number bytes 2 2 = 3

/-- A sound tag, and as many bytes behind it as it covers, with the check value that it holds. -/
structure IsWellFormed (bytes : Bytes) : Prop extends IsSound bytes where
  covered : size + number bytes 10 2 ≤ bytes.length
  crc : number bytes 8 2 = (Crc16.ofBytes (field bytes size (number bytes 10 2))).toNat

/-- The seven fields of a tag, each at its place. -/
structure IsSpelledBy (tag : Tag) (bytes : Bytes) : Prop where
  identifier : tag.identifier.toNat = number bytes 0 2
  version : tag.version.toNat = number bytes 2 2
  checksum : tag.checksum.toNat = number bytes 4 1
  serialNumber : tag.serialNumber.toNat = number bytes 6 2
  crc : tag.crc.toNat = number bytes 8 2
  crcLength : tag.crcLength.toNat = number bytes 10 2
  location : tag.location.toNat = number bytes 12 4

variable {bytes : Bytes} {cursor next : Cursor} {start width : Nat}

theorem number_lt (bytes : Bytes) (start width : Nat)
    : number bytes start width < 1 <<< (8 * width) :=
  Bytes.littleEndian_take_lt (bytes.drop start) width

/-- The bytes of a tag alone spell the same numbers. -/
theorem number_take (h : start + width ≤ size)
    : number (bytes.take size) start width = number bytes start width := by
  rw [number, field_eq bytes h, number, field]

theorem number_one {byte : UInt8} (there : bytes[start]? = some byte)
    : number bytes start 1 = byte.toNat := by
  have one : field bytes start 1 = [byte] := by
    rw [field, List.take_one, List.head?_drop, there]
    rfl
  rw [number, one, Bytes.littleEndian, Bytes.littleEndian, Nat.mul_zero, Nat.add_zero]

/-- The tag of some bytes has its fields at their places. -/
theorem ofBytes_isSpelledBy (bytes : Bytes) : (ofBytes (bytes.take size)).IsSpelledBy bytes := by
  have word {start : Nat} (inside : start + 2 ≤ size)
      : (UInt16.ofNat (number (bytes.take size) start 2)).toNat = number bytes start 2 := by
    rw [UInt16.toNat_ofNat_of_lt' (number_lt _ _ _), number_take inside]
  refine ⟨word (by decide), word (by decide), ?_, word (by decide), word (by decide),
    word (by decide), ?_⟩
  · exact (UInt8.toNat_ofNat_of_lt' (number_lt _ _ _)).trans (number_take (by decide))
  · exact (UInt32.toNat_ofNat_of_lt' (number_lt _ _ _)).trans (number_take (by decide))

/-- The byte at a place of a tag is the number that it spells. -/
theorem getElem?_eq_number {place : Nat} (complete : size ≤ bytes.length) (inside : place < size)
    : bytes[place]? = some (.ofNat (number (bytes.take size) place 1)) := by
  have there : bytes[place]? = some bytes[place] := List.getElem?_eq_getElem (by omega)
  rw [number_take inside, number_one there, UInt8.ofNat_toNat, there]

/-- The sum of a tag is that of all its bytes but the fifth. -/
theorem toNat_ofTag_take (complete : size ≤ bytes.length)
    : (TagChecksum.ofTag (bytes.take size)).toNat
      = Bytes.total (field bytes 0 4 ++ field bytes 5 11) % 256 := by
  have length : (bytes.take size).length = TagChecksum.coverage := List.length_take_of_le complete
  rw [TagChecksum.toNat_ofTag length, List.take_take, List.drop_take]
  rfl

/-- Sixteen bytes pass the checks that look at no others. -/
structure Vouches (raw : Bytes) : Prop where
  reserved_eq : reserved raw = 0
  checksum_eq : TagChecksum.ofTag raw = (ofBytes raw).checksum
  version_eq : (ofBytes raw).version = 2 ∨ (ofBytes raw).version = 3

/-- What is right about the bytes of a sound tag is what is checked of them. -/
theorem isSound_iff : IsSound bytes ↔ size ≤ bytes.length ∧ Vouches (bytes.take size) := by
  have version_eq {version : UInt16}
      : (ofBytes (bytes.take size)).version = version ↔ number bytes 2 2 = version.toNat := by
    rw [← UInt16.toNat_inj, (ofBytes_isSpelledBy bytes).version]
  constructor
  · intro isSound
    have complete := isSound.complete
    refine ⟨complete, ?_, ?_, isSound.version.imp version_eq.mpr version_eq.mpr⟩
    · have reserved := isSound.reserved
      rw [getElem?_eq_number complete (by decide)] at reserved
      exact Option.some.inj reserved
    · have checksum := isSound.checksum
      rw [getElem?_eq_number complete (by decide), ← toNat_ofTag_take complete] at checksum
      exact (UInt8.toNat_inj.mp (Option.some.inj checksum)).symm
  · rintro ⟨complete, vouches⟩
    refine ⟨complete, ?_, ?_, vouches.version_eq.imp version_eq.mp version_eq.mp⟩
    · rw [getElem?_eq_number complete (by decide)]
      exact congrArg some vouches.reserved_eq
    · rw [getElem?_eq_number complete (by decide), ← toNat_ofTag_take complete,
        vouches.checksum_eq]
      rfl

/-- A well-formed tag is one that is there and sealed. -/
theorem isWellFormed_iff
    : IsWellFormed bytes ↔ size ≤ bytes.length ∧ IsSealed (bytes.take size) (bytes.drop size) := by
  have spelled := ofBytes_isSpelledBy bytes
  have behind : field bytes size (number bytes 10 2)
      = (bytes.drop size).take (ofBytes (bytes.take size)).crcLength.toNat := by
    rw [field, spelled.crcLength]
  constructor
  · intro isWellFormed
    obtain ⟨complete, vouches⟩ := isSound_iff.mp isWellFormed.toIsSound
    have covered := isWellFormed.covered
    refine ⟨complete, { vouches with covered := ?_, crc_eq := ?_ }⟩
    · rw [spelled.crcLength, List.length_drop]
      omega
    · rw [← UInt16.toNat_inj, spelled.crc, isWellFormed.crc, behind]
  · rintro ⟨complete, isSealed⟩
    have isSound : IsSound bytes := isSound_iff.mpr ⟨complete, { isSealed with }⟩
    have covered := isSealed.covered
    refine { isSound with covered := ?_, crc := ?_ }
    · rw [spelled.crcLength, List.length_drop] at covered
      omega
    · rw [← spelled.crc, isSealed.crc_eq, behind]

-----------------------------------------------------------------------------------------
-- Which way a tag is turned down
-----------------------------------------------------------------------------------------

/-- The check of a tag comes upon the end of the data where the tag vouches for itself and not all
of the bytes that it covers are there.
-/
theorem verify_truncated_iff {raw : Bytes}
    : (∃ truncation next, verify raw cursor = .error (.truncated truncation) next)
      ↔ Vouches raw ∧ cursor.remaining < (ofBytes raw).crcLength.toNat := by
  simp only [verify, demand_bind_truncated_iff, decide_eq_true_eq, Bool.or_eq_true]
  by_cases covered : (ofBytes raw).crcLength.toNat ≤ cursor.remaining
  · refine iff_of_false ?_ (fun short => absurd short.2 (by omega))
    rintro ⟨truncation, next, -, -, -, failed⟩
    rw [bind_of_ok (peek_eq_ok covered), demand_bind_truncated_iff] at failed
    cases failed.2
  · have short : cursor.remaining < (ofBytes raw).crcLength.toNat := by omega
    rw [bind_of_error (peek_eq_error short)]
    constructor
    · rintro ⟨_, _, reserved, checksum, version, -⟩
      exact ⟨⟨reserved, checksum, version⟩, short⟩
    · rintro ⟨vouches, -⟩
      exact ⟨_, _, vouches.reserved_eq, vouches.checksum_eq, vouches.version_eq, rfl⟩

/-- The data end too early within a tag, or behind a sound one within what it covers. -/
theorem decode_truncated_iff
    : (∃ truncation next, decode cursor = .error (.truncated truncation) next)
      ↔ cursor.remaining < size
        ∨ IsSound cursor.rest ∧ cursor.remaining < size + number cursor.rest 10 2 := by
  by_cases present : size ≤ cursor.remaining
  · have crcLength := (ofBytes_isSpelledBy cursor.rest).crcLength
    rw [decode_eq_verify present, verify_truncated_iff, crcLength, isSound_iff,
      Cursor.remaining_advance]
    constructor
    · rintro ⟨vouches, short⟩
      exact .inr ⟨⟨present, vouches⟩, by omega⟩
    · rintro (short | ⟨sound, short⟩)
      · omega
      · exact ⟨sound.2, by omega⟩
  · have short : cursor.remaining < size := by omega
    exact iff_of_true ⟨_, _, bind_of_error (peek_eq_error short)⟩ (.inl short)

-----------------------------------------------------------------------------------------
-- Well-formed tags are those that are accepted
-----------------------------------------------------------------------------------------

/-- The tag of a body that it covers whole, with the check values that belong to it. -/
def heading (identifier version serialNumber : UInt16) (location : UInt32) (body : Bytes) : Tag :=
  stamped {
    identifier, version, checksum := 0, serialNumber, crc := 0, crcLength := .ofNat body.length,
    location
  } body

/-- A tag is accepted exactly when it is well formed, and then its seven fields are those that its
bytes spell and the cursor stands behind it. So the heading of any body is read in front of it with
the values that it was made of, whatever follows the two. What is not accepted condemns the image;
the data are found to end too early exactly where the tag is cut short, or where it is sound and the
bytes that it covers are cut short.
-/
theorem decode_iff_isWellFormed
    : (∀ cursor : Cursor,
        ((∃ tag next, decodeOnce none cursor = .ok tag next) ↔ IsWellFormed cursor.rest)
        ∧ (∀ tag next, decodeOnce none cursor = .ok tag next
          → tag.IsSpelledBy cursor.rest ∧ next = cursor.advance size)
        ∧ (∀ failure next, decodeOnce none cursor = .error failure next
          → failure.condemnsImage = true)
        ∧ ((∃ truncation next, decodeOnce none cursor = .error (.truncated truncation) next)
          ↔ cursor.remaining < size
            ∨ IsSound cursor.rest ∧ cursor.remaining < size + number cursor.rest 10 2))
      ∧ ∀ (identifier version serialNumber : UInt16) (location : UInt32) (offset : Nat)
          (body trailing : Bytes),
        version = 2 ∨ version = 3 → body.length ≤ 65535
        → ∃ tag, decodeOnce none ⟨offset,
                (heading identifier version serialNumber location body).bytes
                  ++ body ++ trailing⟩
              = .ok tag ⟨offset + size, body ++ trailing⟩
            ∧ tag.identifier = identifier ∧ tag.version = version
            ∧ tag.serialNumber = serialNumber ∧ tag.location = location
            ∧ tag.crcLength.toNat = body.length ∧ tag.crc = Crc16.ofBytes body := by
  constructor
  · intro cursor
    refine ⟨?_, ?_, ?_, decode_truncated_iff⟩
    · rw [isWellFormed_iff]
      constructor
      · rintro ⟨tag, next, accepted⟩
        obtain ⟨complete, isSealed, -⟩ := decode_eq_ok_iff.mp accepted
        exact ⟨complete, isSealed⟩
      · rintro ⟨complete, isSealed⟩
        exact ⟨_, _, decode_eq_ok_iff.mpr ⟨complete, isSealed, rfl, rfl⟩⟩
    · intro tag next accepted
      obtain ⟨-, -, rfl, rfl⟩ := decode_eq_ok_iff.mp accepted
      exact ⟨ofBytes_isSpelledBy _, rfl⟩
    · intro failure next failed
      have judging : Judging decode := inferInstance
      exact (judging.isVerdict failed).condemnsImage
  · intro identifier version serialNumber location offset body trailing known short
    have covers : (UInt16.ofNat body.length).toNat = body.length :=
      UInt16.toNat_ofNat_of_lt' (Nat.lt_succ_of_le short)
    have isSealed : IsSealed (heading identifier version serialNumber location body).bytes body :=
      isSealed_stamped known (Nat.le_of_eq covers)
    have found := decode_of_isSealed (length_bytes _) isSealed offset trailing
    rw [ofBytes_bytes, length_bytes] at found
    refine ⟨_, found, rfl, rfl, rfl, rfl, covers, ?_⟩
    have whole : body.take (UInt16.ofNat body.length).toNat = body := by
      rw [covers, List.take_length]
    exact congrArg Crc16.ofBytes whole

/-- The heading of three bytes, and the three bytes. -/
def headedBytes : Bytes := [7, 0, 3, 0, 224, 0, 1, 0, 49, 97, 3, 0, 64, 0, 0, 0, 1, 2, 3]

/-- The heading of three bytes is read in front of them, at offset 5 and with another byte behind
them. Without the last of the three the data end too early.
-/
theorem decode_iff_isWellFormed_headedBytes
    : ((3 : UInt16) = 2 ∨ (3 : UInt16) = 3)
      ∧ ([1, 2, 3] : Bytes).length ≤ 65535
      ∧ headedBytes = (heading 7 3 1 64 [1, 2, 3]).bytes ++ [1, 2, 3]
      ∧ (∃ tag, decodeOnce none ⟨5, headedBytes ++ [9]⟩ = .ok tag ⟨21, [1, 2, 3, 9]⟩
          ∧ tag.identifier = 7 ∧ tag.serialNumber = 1 ∧ tag.location = 64)
      ∧ IsWellFormed (headedBytes ++ [9])
      ∧ ∃ truncation next,
          decodeOnce none ⟨5, headedBytes.take 18⟩ = .error (.truncated truncation) next := by
  have known : (3 : UInt16) = 2 ∨ (3 : UInt16) = 3 := .inr rfl
  have short : ([1, 2, 3] : Bytes).length ≤ 65535 := by decide
  have spelled : headedBytes = (heading 7 3 1 64 [1, 2, 3]).bytes ++ [1, 2, 3] := by rfl
  obtain ⟨accepted, headed⟩ := decode_iff_isWellFormed
  obtain ⟨tag, found, identifier, -, serialNumber, location, -⟩ :=
    headed 7 3 1 64 5 [1, 2, 3] [9] known short
  rw [← spelled] at found
  have isSound : IsSound (headedBytes.take 18) := ⟨by decide, by decide, by decide, by decide⟩
  refine ⟨known, short, spelled, ⟨tag, found, identifier, serialNumber, location⟩, ?_, ?_⟩
  · exact (accepted ⟨5, headedBytes ++ [9]⟩).1.mp ⟨tag, _, found⟩
  · exact (accepted ⟨5, headedBytes.take 18⟩).2.2.2.mpr (.inr ⟨isSound, by decide⟩)

end Tag

end DiscVolume
