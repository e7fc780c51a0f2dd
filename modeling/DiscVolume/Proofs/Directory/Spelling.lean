import DiscVolume.Directory
import DiscVolume.Proofs.Cursor.Reading
import DiscVolume.Proofs.Descriptor.Dispatch
import DiscVolume.Proofs.Descriptor.Fields
import DiscVolume.Proofs.Descriptor.Sealing

/-! How the records of a directory are written down, field by field, and that they are read back.
Records are spelled one after the other; whatever follows them, reading up to their end finds
them all in order.
-/

namespace DiscVolume

open Decoder Sequencing

namespace FileIdentifier

/-- The bytes of a name: none, or a compression identifier and the text under it. -/
inductive SpellsName : Bytes → String → Prop where
  | empty : SpellsName [] ""
  | text (compression : UInt8) (data : Bytes) (name : String)
      (spelled : dcharactersText compression data = .ok name)
      : SpellsName (compression :: data) name

theorem SpellsName.reads {data : Bytes} {name : String} (spells : SpellsName data name)
    (offset : Nat)
    : Reads (dcharacters data.length) offset data name := by
  cases spells with
  | empty => exact Reads.pure ""
  | text compression data name spelled =>
      rw [dcharacters, if_neg (by simp)]
      have one : [compression] = Bytes.ofNat 1 compression.toNat := by simp [Bytes.ofNat]
      rw [← List.singleton_append, one]
      exact (Reads.uint8 compression).bind ((Reads.take data rfl).bind_last (.settle spelled))

/-- What follows the tag of a record. -/
def body (identifier : FileIdentifier) (icbUse nameBytes filler : Bytes) : Bytes :=
  Bytes.ofNat 2 identifier.version.toNat
    ++ (Bytes.ofNat 1 identifier.characteristics.toNat
    ++ (Bytes.ofNat 1 identifier.nameLength.toNat
    ++ (identifier.icb.spelled icbUse
    ++ (Bytes.ofNat 2 identifier.implementationUseLength.toNat
    ++ (identifier.implementationUse
    ++ (nameBytes ++ filler))))))

/-- A way to write a record down. The tag is sealed over the body, the lengths are those of the
fields, and bytes of any value fill the record up to a multiple of four.
-/
structure Spelling (identifier : FileIdentifier) where
  tagBytes : Bytes
  icbUse : Bytes
  nameBytes : Bytes
  filler : Bytes
  length_tagBytes : tagBytes.length = Tag.size
  tag_eq : Tag.ofBytes tagBytes = identifier.tag
  kind_eq : identifier.tag.identifier = DescriptorKind.fileIdentifier.tag
  isSealed : Tag.IsSealed tagBytes (identifier.body icbUse nameBytes filler)
  length_icbUse : icbUse.length = 6
  length_use : identifier.implementationUse.length = identifier.implementationUseLength.toNat
  length_name : nameBytes.length = identifier.nameLength.toNat
  spellsName : SpellsName nameBytes identifier.name
  length_filler : filler.length < 4
  aligned : 4 ∣ Tag.size + (identifier.body icbUse nameBytes filler).length

namespace Spelling

variable {identifier : FileIdentifier}

def bytes (spelling : Spelling identifier) : Bytes :=
  spelling.tagBytes ++ identifier.body spelling.icbUse spelling.nameBytes spelling.filler

theorem length_body (spelling : Spelling identifier)
    : (identifier.body spelling.icbUse spelling.nameBytes spelling.filler).length
      = 22 + identifier.implementationUse.length + spelling.nameBytes.length
        + spelling.filler.length := by
  simp only [body, LongAllocation.spelled, List.length_append, Bytes.length_ofNat,
    spelling.length_icbUse]
  omega

theorem length_bytes_pos (spelling : Spelling identifier) : 0 < spelling.bytes.length := by
  have length := spelling.length_tagBytes
  rw [bytes, List.length_append, length, Tag.size]
  omega

/-- The filler is what is missing up to the next multiple of four. -/
theorem padding_eq (spelling : Spelling identifier)
    : padding (38 + identifier.implementationUse.length + spelling.nameBytes.length : Int)
      = spelling.filler.length := by
  have aligned := spelling.aligned
  have short := spelling.length_filler
  rw [spelling.length_body, Tag.size] at aligned
  rw [padding, Int.fdiv_eq_ediv_of_nonneg _ (by decide)]
  omega

/-- A record is read where it is written down. -/
theorem reads (spelling : Spelling identifier) (offset : Nat)
    : Reads FileIdentifier.decode offset spelling.bytes identifier := by
  have length := spelling.length_body
  unfold FileIdentifier.decode
  refine .position (Tag.reads_expect spelling.length_tagBytes spelling.isSealed ?_ ?_)
  · rw [spelling.tag_eq, spelling.kind_eq]
  · rw [spelling.tag_eq]
    refine .require (by omega) ?_
    refine (Reads.uint16 _).bind ((Reads.uint8 _).bind ((Reads.uint8 _).bind ?_))
    refine (LongAllocation.reads_spelled _ spelling.length_icbUse _).bind ?_
    refine (Reads.uint16 _).bind ((Reads.take _ spelling.length_use).bind ?_)
    rw [← spelling.length_name]
    refine (spelling.spellsName.reads _).bind (.position ?_)
    refine (Reads.skip _ ?_).bind_last (.pure _)
    -- How far the filler goes is computed from the place of the record, which cancels out.
    have passed := spelling.padding_eq
    simp only [LongAllocation.spelled, List.length_append, Bytes.length_ofNat,
      spelling.length_icbUse, spelling.length_tagBytes, Tag.size]
    have distance (use name : Nat)
        : ((offset + 16 + 2 + 1 + 1 + (4 + (6 + 6)) + 2 + use + name : Nat) : Int) - offset
          = 38 + use + name := by
      omega
    rw [distance, passed, Int.toNat_natCast]

end Spelling

/-- A record with a name in single bytes that leads to a block, and nothing else of note. -/
def plain (letters : Bytes) (block : UInt32) : FileIdentifier where
  tag := ⟨257, 2, 4, 0, 0, 0, 0⟩
  version := 1
  characteristics := 0
  nameLength := .ofNat (letters.length + 1)
  icb := { location := block.toBitVec.setWidth 48 }
  implementationUseLength := 0
  implementationUse := []
  name := Bytes.latin1 letters

/-- Plain records can be written down as long as the length of the name fits into its field. -/
def plainSpelling (letters : Bytes) (block : UInt32) (short : letters.length < 255)
    : Spelling (plain letters block) where
  tagBytes := [1, 1, 2, 0, 4] ++ List.replicate 11 0
  icbUse := List.replicate 6 0
  nameBytes := singleByte :: letters
  filler := List.replicate ((4 - (39 + letters.length) % 4) % 4) 0
  length_tagBytes := rfl
  tag_eq := rfl
  kind_eq := rfl
  isSealed := ⟨rfl, rfl, .inl rfl, Nat.zero_le _, rfl⟩
  length_icbUse := rfl
  length_use := rfl
  length_name := by
    simp only [plain, List.length_cons, UInt8.toNat_ofNat', Nat.reducePow]
    omega
  spellsName := .text singleByte letters _ rfl
  length_filler := by
    rw [List.length_replicate]
    omega
  aligned := by
    simp only [body, plain, LongAllocation.spelled, List.length_append, Bytes.length_ofNat,
      List.length_replicate, List.length_cons, List.length_nil, Tag.size]
    omega

end FileIdentifier

namespace Directory

open FileIdentifier

/-- A record is decoded where it is written down, by the identifier of its tag. -/
theorem reads_tagged {identifier : FileIdentifier} (spelling : Spelling identifier)
    (offset : Nat)
    : Reads (Descriptor.decodeTagged DescriptorKind.fileIdentifier.tagNumber) offset
        spelling.bytes (.fileIdentifier identifier) := by
  have decoded : Reads Descriptor.decode offset spelling.bytes (.fileIdentifier identifier) := by
    intro rest
    have named : (Tag.ofBytes spelling.tagBytes).identifier
        = DescriptorKind.fileIdentifier.tag := by
      rw [spelling.tag_eq, spelling.kind_eq]
    have chosen := Descriptor.decode_append_eq_decodeAs spelling.length_tagBytes named offset
      (identifier.body spelling.icbUse spelling.nameBytes spelling.filler ++ rest)
    rw [← List.append_assoc] at chosen
    rw [FileIdentifier.Spelling.bytes, chosen]
    exact (spelling.reads offset).map rest
  exact decoded.bind_last (.demand (decide_eq_true rfl) (.pure _))

/-- A record is found where it is written down. -/
theorem reads_record {identifier : FileIdentifier} (spelling : Spelling identifier)
    (offset : Nat)
    : Reads record offset spelling.bytes identifier :=
  (reads_tagged spelling offset).bind_last (.pure identifier)

/-- Some bytes spell some records, one after the other. -/
inductive Spells : List FileIdentifier → Bytes → Prop where
  | nil : Spells [] []
  | cons {identifier : FileIdentifier} {others : List FileIdentifier} {data : Bytes}
      (spelling : Spelling identifier) (behind : Spells others data)
      : Spells (identifier :: others) (spelling.bytes ++ data)

theorem records_of_ok {size : Nat} {cursor next : Cursor} {identifier : FileIdentifier}
    (before : cursor.offset < size) (found : record cursor = .ok identifier next)
    : records size cursor = (identifier :: (records size next).1, (records size next).2) := by
  rw [records, if_pos before]
  split
  · next same =>
      rw [found] at same
      cases same
      rfl
  · next same =>
      rw [found] at same
      cases same

/-- Spelled records are found in order, whatever follows the last of them. -/
theorem Spells.records_eq {identifiers : List FileIdentifier} {data : Bytes}
    (spells : Spells identifiers data) (offset : Nat) (rest : Bytes)
    : records (offset + data.length) ⟨offset, data ++ rest⟩ = (identifiers, none) := by
  induction spells generalizing offset with
  | nil =>
      rw [records, if_neg (by simp)]
  | @cons identifier others data spelling behind ih =>
      have positive := spelling.length_bytes_pos
      have found := reads_record spelling offset (data ++ rest)
      rw [← List.append_assoc] at found
      rw [records_of_ok (by simp only [List.length_append]; omega) found,
        List.length_append, ← Nat.add_assoc, ih]

end Directory

end DiscVolume
