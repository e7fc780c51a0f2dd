import DiscVolume.Proofs.Descriptor.Dispatch
import DiscVolume.Proofs.Descriptor.Layouts

/-! File entries as they are recorded: a stamped tag, the attributes of the file, and its data in
one of three forms, which the flags of the entry tell apart. An entry is read back in each of the
forms; where the flags name any other form, it is turned down in front of its data.
-/

namespace DiscVolume

open Decoder Sequencing

-----------------------------------------------------------------------------------------
-- Parts of file entries
-----------------------------------------------------------------------------------------

def BlockAddress.layout (address : BlockAddress) : Template :=
  .sequence [.uint32 address.block, .uint16 address.partitionReference]

theorem BlockAddress.recovers (address : BlockAddress)
    : Recovers decode address.layout address :=
  .require (by simp [layout]) ((Recovers.uint32 _).bind ((Recovers.uint16 _).bind (.pure _)))

def IcbTag.layout (icb : IcbTag) : Template :=
  .sequence [.uint32 icb.priorDirectEntries, .uint16 icb.strategyType,
    .uint16 icb.strategyParameter, .uint16 icb.maximumEntries, .blank 1, .uint8 icb.fileType,
    icb.parent.layout, .uint16 icb.flags]

theorem IcbTag.recovers (icb : IcbTag) : Recovers decode icb.layout icb := by
  refine .require (by simp +arith [layout]) ?_
  refine (Recovers.uint32 _).bind ((Recovers.uint16 _).bind ((Recovers.uint16 _).bind ?_))
  refine (Recovers.uint16 _).bind ((Recovers.skip 1).bind ((Recovers.uint8 _).bind ?_))
  exact (BlockAddress.recovers _).bind ((Recovers.uint16 _).bind (.pure _))

def ShortAllocation.layout (allocation : ShortAllocation) : Template :=
  .sequence [.uint32 allocation.length.recorded, .uint32 allocation.block]

theorem ShortAllocation.recovers (allocation : ShortAllocation)
    : Recovers decode allocation.layout allocation := by
  have read : Recovers decode allocation.layout
      ⟨.ofRecorded allocation.length.recorded, allocation.block⟩ :=
    .require (by simp [layout]) ((Recovers.uint32 _).bind ((Recovers.uint32 _).bind (.pure _)))
  rwa [AllocationLength.ofRecorded_recorded] at read

namespace LongAllocation

/-- A location spells the number of its block and, behind it, its partition reference. -/
theorem location_bytes (allocation : LongAllocation)
    : Bytes.ofNat 6 allocation.location.toNat
      = Bytes.ofNat 4 allocation.block.toNat
        ++ Bytes.ofNat 2 allocation.partitionReference.toNat := by
  have block : allocation.block.toNat = allocation.location.toNat % 1 <<< (8 * 4) := by
    simp [block, UInt32.toNat, BitVec.extractLsb'_toNat]
  have reference : allocation.partitionReference.toNat
      = allocation.location.toNat / 1 <<< (8 * 4) % 1 <<< (8 * 2) := by
    simp [partitionReference, UInt16.toNat, BitVec.extractLsb'_toNat, Nat.shiftRight_eq_div_pow]
  rw [block, reference, Bytes.ofNat_mod, Bytes.ofNat_mod, ← Bytes.ofNat_add]

/-- A long allocation by its parts. The last six bytes are open. -/
def parts (allocation : LongAllocation) : Template :=
  .sequence [.uint32 allocation.length.recorded, .uint32 allocation.block,
    .uint16 allocation.partitionReference, .blank 6]

/-- The parts of a long allocation lie where its location does. -/
theorem parts_eq_layout (allocation : LongAllocation) : allocation.parts = allocation.layout := by
  simp [parts, layout, Template.recorded, location_bytes]

end LongAllocation

namespace FileData

/-- The form that the flags of an entry name for data. -/
def form : FileData → Nat
  | short _ => 0
  | long _ => 1
  | embedded _ => 3

/-- The number of bytes that data take up in an entry. -/
def size : FileData → Nat
  | short allocations => 8 * allocations.length
  | long allocations => 16 * allocations.length
  | embedded data => data.length

def layout : FileData → Template
  | short allocations => .sequence (allocations.map ShortAllocation.layout)
  | long allocations => .sequence (allocations.map LongAllocation.parts)
  | embedded data => .recorded data

/-- Data are found in the form and the size that they are recorded in. -/
theorem recovers (data : FileData) : Recovers (decode data.form data.size) data.layout data := by
  intro background offset
  cases data with
  | short allocations =>
      have all : Recovers (times ShortAllocation.decode (8 * allocations.length / 8)) _
          allocations :=
        .times (fun allocation _ => allocation.recovers) (by omega)
      exact (all background offset).map
  | long allocations =>
      have all : Recovers (times LongAllocation.decode (16 * allocations.length / 16)) _
          allocations :=
        .times (fun allocation _ => allocation.parts_eq_layout ▸ allocation.recovers) (by omega)
      exact (all background offset).map
  | embedded data => exact (Recovers.take rfl background offset).map

/-- Data in any form but the three are turned down unread. -/
theorem decode_of_unknown {other : Nat} (unknown : other ∉ [0, 1, 3]) (size : Nat) (cursor : Cursor)
    : decode other size cursor = .error (.malformed (.allocationType other)) cursor := by
  unfold decode
  split
  · exact absurd (by simp) unknown
  · exact absurd (by simp) unknown
  · exact absurd (by simp) unknown
  · rfl

end FileData

-----------------------------------------------------------------------------------------
-- File entries
-----------------------------------------------------------------------------------------

namespace FileEntry

/-- What is read between the tag and the data: an entry that is empty so far. -/
def attributes (tag : Tag) : Decoder FileEntry := do
  let icb ← IcbTag.decode
  require 36
  let userId ← uint32
  let groupId ← uint32
  let permissions ← uint32
  let linkCount ← uint16
  let recordFormat ← uint8
  let recordAttributes ← uint8
  let recordLength ← uint32
  let informationLength ← uint64
  let blocksRecorded ← uint64
  let accessTime ← timestamp
  let modificationTime ← timestamp
  let attributeTime ← timestamp
  let checkpoint ← uint32
  let extendedAttributeIcb ← LongAllocation.decode
  let implementation ← EntityId.decode
  require 16
  let uniqueId ← uint64
  let extendedAttributesLength ← uint32
  let allocationLength ← uint32
  let extendedAttributes ← take extendedAttributesLength.toNat
  return {
    tag, icb, userId, groupId, permissions, linkCount, recordFormat, recordAttributes,
    recordLength, informationLength, blocksRecorded, accessTime, modificationTime,
    attributeTime, checkpoint, extendedAttributeIcb, implementation, uniqueId,
    extendedAttributesLength, allocationLength, extendedAttributes, data := .embedded []
  }

/-- The data are read last, as the attributes say. -/
theorem decode_eq_attributes
    : decode = Tag.expect .fileEntry >>= fun tag => do
        let entry ← attributes tag
        let data ← FileData.decode entry.icb.allocationForm entry.allocationLength.toNat
        return { entry with data } := by
  simp only [decode, attributes, bind_assoc, pure_bind]

/-- Between the tag and the data. -/
def attributesLayout (entry : FileEntry) : Template :=
  .sequence [entry.icb.layout, .uint32 entry.userId, .uint32 entry.groupId,
    .uint32 entry.permissions, .uint16 entry.linkCount, .uint8 entry.recordFormat,
    .uint8 entry.recordAttributes, .uint32 entry.recordLength, .uint64 entry.informationLength,
    .uint64 entry.blocksRecorded, .timestamp entry.accessTime, .timestamp entry.modificationTime,
    .timestamp entry.attributeTime, .uint32 entry.checkpoint, entry.extendedAttributeIcb.layout,
    entry.implementation.layout, .uint64 entry.uniqueId, .uint32 entry.extendedAttributesLength,
    .uint32 entry.allocationLength, .recorded entry.extendedAttributes]

def layout (entry : FileEntry) : Template :=
  .sequence [entry.attributesLayout, entry.data.layout]

/-- An entry that can be recorded: its times are recordable, byte fields have their sizes, and so do
the extended attributes and the data. The tag covers no more than the body; its check values are not
looked at, because recording replaces them.
-/
structure IsRecordable (entry : FileEntry) : Prop where
  named : entry.tag.identifier = DescriptorKind.fileEntry.tag
  known : entry.tag.version = 2 ∨ entry.tag.version = 3
  covered : entry.tag.crcLength.toNat ≤ entry.layout.length
  accessTime : IsRecordableTime entry.accessTime
  modificationTime : IsRecordableTime entry.modificationTime
  attributeTime : IsRecordableTime entry.attributeTime
  implementation : entry.implementation.IsRecordable
  extendedAttributes : entry.extendedAttributes.length = entry.extendedAttributesLength.toNat
  allocationLength : entry.data.size = entry.allocationLength.toNat

variable {entry : FileEntry}

/-- The attributes are read as they are recorded. -/
theorem IsRecordable.recovers_attributes (recordable : entry.IsRecordable) (tag : Tag)
    : Recovers (attributes tag) entry.attributesLayout
        { entry with tag, data := .embedded [] } := by
  refine (IcbTag.recovers _).bind (.require (by simp +arith) ?_)
  refine (Recovers.uint32 _).bind ((Recovers.uint32 _).bind ((Recovers.uint32 _).bind ?_))
  refine (Recovers.uint16 _).bind ((Recovers.uint8 _).bind ((Recovers.uint8 _).bind ?_))
  refine (Recovers.uint32 _).bind ((Recovers.uint64 _).bind ((Recovers.uint64 _).bind ?_))
  refine (Recovers.timestamp recordable.accessTime).bind ?_
  refine (Recovers.timestamp recordable.modificationTime).bind ?_
  refine (Recovers.timestamp recordable.attributeTime).bind ((Recovers.uint32 _).bind ?_)
  refine (LongAllocation.recovers _).bind (recordable.implementation.recovers.bind ?_)
  refine .require (by simp +arith) ?_
  refine (Recovers.uint64 _).bind ((Recovers.uint32 _).bind ((Recovers.uint32 _).bind ?_))
  exact (Recovers.take recordable.extendedAttributes).bind (.pure _)

/-- The body over a background that shows through its open bytes. -/
def body (entry : FileEntry) (background : Nat → UInt8) : Bytes := entry.layout.filled background

/-- The tag with the check values that it is recorded with. -/
def stampedTag (entry : FileEntry) (background : Nat → UInt8) : Tag :=
  entry.tag.stamped (entry.body background)

/-- The bytes that an entry is recorded in. -/
def encoded (entry : FileEntry) (background : Nat → UInt8) : Bytes :=
  (entry.stampedTag background).bytes ++ entry.body background

variable {background : Nat → UInt8}

/-- The stamped tag vouches for the body. -/
theorem IsRecordable.heads (recordable : entry.IsRecordable) (background : Nat → UInt8)
    : (entry.stampedTag background).Heads .fileEntry (entry.body background) :=
  Tag.heads_stamped recordable.named recordable.known
    (by rw [body, Template.length_filled]; exact recordable.covered)

/-- A recorded entry is read as one, by its tag. -/
theorem IsRecordable.decode_eq (recordable : entry.IsRecordable) (background : Nat → UInt8)
    (offset : Nat) (rest : Bytes)
    : Descriptor.decode ⟨offset, entry.encoded background ++ rest⟩
      = (Descriptor.fileEntry <$> decode) ⟨offset, entry.encoded background ++ rest⟩ := by
  have named : (Tag.ofBytes (entry.stampedTag background).bytes).identifier
      = DescriptorKind.fileEntry.tag := by
    rw [Tag.ofBytes_bytes, (recordable.heads background).named]
  have chosen := Descriptor.decode_append_eq_decodeAs (Tag.length_bytes _) named offset
    (entry.body background ++ rest)
  rwa [← List.append_assoc] at chosen

/-- Data in the form that the flags name are read behind the attributes. -/
theorem IsRecordable.reads (recordable : entry.IsRecordable)
    (named : entry.icb.allocationForm = entry.data.form) (offset : Nat)
    : Reads decode offset (entry.encoded background)
        { entry with tag := entry.stampedTag background } := by
  rw [decode_eq_attributes]
  refine (recordable.heads background).reads ?_ offset
  refine (recordable.recovers_attributes _).bind ?_
  have data := entry.data.recovers
  rw [← named, recordable.allocationLength] at data
  exact data.bind (.pure _)

/-- Where the flags name no form of data, reading stops behind the attributes. -/
theorem IsRecordable.fails (recordable : entry.IsRecordable)
    (unknown : entry.icb.allocationForm ∉ [0, 1, 3]) (offset : Nat) (rest : Bytes)
    : decode ⟨offset, entry.encoded background ++ rest⟩
      = .error (.malformed (.allocationType entry.icb.allocationForm))
          (Cursor.advance ⟨offset, entry.encoded background ++ rest⟩
            (Tag.size + entry.attributesLayout.length)) := by
  have heads := recordable.heads background
  have named : (Tag.ofBytes (entry.stampedTag background).bytes).identifier
      = DescriptorKind.fileEntry.tag := by
    rw [Tag.ofBytes_bytes, heads.named]
  have passed := Tag.expect_eq_ok (Tag.length_bytes _) heads.isSealed named offset rest
  rw [Tag.ofBytes_bytes, Tag.length_bytes] at passed
  obtain ⟨data, parts⟩ : ∃ data, entry.body background
      = entry.attributesLayout.filled background ++ data :=
    ⟨_, Template.append_filled ..⟩
  have found := recordable.recovers_attributes (entry.stampedTag background) background
    (offset + Tag.size) (data ++ rest)
  rw [← List.append_assoc, ← parts, Template.length_filled] at found
  have place : Cursor.advance ⟨offset, entry.encoded background ++ rest⟩
      (Tag.size + entry.attributesLayout.length)
      = ⟨offset + Tag.size + entry.attributesLayout.length, data ++ rest⟩ := by
    rw [Cursor.advance, encoded, parts, ← List.drop_drop, List.append_assoc,
      ← Tag.length_bytes (entry.stampedTag background), List.drop_left, List.append_assoc,
      ← Template.length_filled entry.attributesLayout background, List.drop_left, Nat.add_assoc]
  rw [place, decode_eq_attributes, encoded, bind_of_ok passed, bind_of_ok found]
  exact bind_of_error (FileData.decode_of_unknown unknown _ _)

/-- Decoding undoes encoding in all three forms of data. Where an entry is recorded, over any
background and with anything behind it, the same entry is found, its tag with the check values it
was recorded with, and reading stops right behind it, provided that the flags name the form of the
data. Where they name none of the three forms the entry is malformed for that reason, whatever its
data.
-/
theorem encoded_forms_decode (recordable : entry.IsRecordable) (background : Nat → UInt8)
    (offset : Nat) (rest : Bytes)
    : (entry.icb.allocationForm = entry.data.form
        → Descriptor.decode ⟨offset, entry.encoded background ++ rest⟩
          = .ok (.fileEntry { entry with tag := entry.stampedTag background })
              ⟨offset + (entry.encoded background).length, rest⟩)
      ∧ (entry.icb.allocationForm ∉ [0, 1, 3]
        → Descriptor.decode ⟨offset, entry.encoded background ++ rest⟩
          = .error (.malformed (.allocationType entry.icb.allocationForm))
              (Cursor.advance ⟨offset, entry.encoded background ++ rest⟩
                (Tag.size + entry.attributesLayout.length))) := by
  rw [recordable.decode_eq]
  constructor
  · intro named
    exact (recordable.reads named offset).map rest
  · intro unknown
    exact map_of_error (recordable.fails unknown offset rest)

/-- An entry under some flags whose data lie in two pieces, in block 9 of partition 1 and in block
300 of partition 0. It has three bytes of extended attributes and was never read.
-/
def twoPieces (flags : UInt16) : FileEntry where
  tag := ⟨261, 3, 0, 1, 0, 195, 64⟩
  icb := ⟨0, 4, 0, 1, 5, ⟨0, 0⟩, flags⟩
  userId := 1000
  groupId := 100
  permissions := 0x14A4
  linkCount := 1
  recordFormat := 0
  recordAttributes := 0
  recordLength := 0
  informationLength := 3000
  blocksRecorded := 2
  accessTime := none
  modificationTime := some ⟨2004, 2, 29, 12, 30, 5⟩
  attributeTime := some ⟨1999, 12, 31, 23, 59, 59⟩
  checkpoint := 1
  extendedAttributeIcb := {}
  implementation := ⟨0, Bytes.ofText "*plain" ++ List.replicate 17 0, List.replicate 8 7⟩
  uniqueId := 300
  extendedAttributesLength := 3
  allocationLength := 32
  extendedAttributes := [1, 2, 3]
  data := .long [⟨⟨2048, 0⟩, 1#16 ++ 9#32⟩, ⟨⟨952, 1⟩, 0#16 ++ 300#32⟩]

theorem length_layout_twoPieces (flags : UInt16) : (twoPieces flags).layout.length = 195 := by
  rfl

theorem twoPieces_isRecordable (flags : UInt16) : (twoPieces flags).IsRecordable where
  named := rfl
  known := .inr rfl
  covered := Nat.le_of_eq (length_layout_twoPieces flags).symm
  accessTime := nofun
  modificationTime := by
    rintro civil found
    cases found
    constructor <;> decide
  attributeTime := by
    rintro civil found
    cases found
    constructor <;> decide
  implementation := ⟨rfl, rfl⟩
  extendedAttributes := rfl
  allocationLength := rfl

/-- Under flags that name long allocations, whatever their upper bits, both pieces are found, and
reading stops in front of three other bytes. Under flags that name no form of data the same entry is
malformed.
-/
theorem encoded_forms_decode_twoPieces
    : (twoPieces 0xFFF9).IsRecordable
      ∧ Descriptor.decode ⟨0, (twoPieces 0xFFF9).encoded (fun place => .ofNat place) ++ [1, 2, 3]⟩
        = .ok (.fileEntry { twoPieces 0xFFF9 with
              tag := (twoPieces 0xFFF9).stampedTag fun place => .ofNat place })
            ⟨211, [1, 2, 3]⟩
      ∧ (twoPieces 0xFFFA).IsRecordable
      ∧ ∃ next,
          Descriptor.decode ⟨0, (twoPieces 0xFFFA).encoded (fun place => .ofNat place) ++ [1, 2, 3]⟩
            = .error (.malformed (.allocationType 2)) next := by
  have length : ((twoPieces 0xFFF9).encoded fun place => .ofNat place).length = 211 := by
    rw [encoded, List.length_append, Tag.length_bytes, body, Template.length_filled,
      length_layout_twoPieces, Tag.size]
  have isRecordable := twoPieces_isRecordable 0xFFF9
  have found := (encoded_forms_decode isRecordable (fun place => .ofNat place) 0 [1, 2, 3]).1 rfl
  rw [length] at found
  have isRecordable' := twoPieces_isRecordable 0xFFFA
  have failed := (encoded_forms_decode isRecordable' (fun place => .ofNat place) 0 [1, 2, 3]).2
    (by decide)
  exact ⟨isRecordable, found, isRecordable', _, failed⟩

end FileEntry

end DiscVolume
