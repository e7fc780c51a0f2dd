import DiscVolume.Descriptor.Entity
import DiscVolume.Descriptor.Extent
import DiscVolume.Proofs.Cursor.Templates

/-! How the fields that descriptors share are recorded: extents, allocations, entity identifiers
and character sets.
-/

namespace DiscVolume

open Decoder

/-- The recorded form of a length, its type above its bytes. -/
def AllocationLength.recorded (length : AllocationLength) : UInt32 := ⟨length.type ++ length.bytes⟩

theorem AllocationLength.ofRecorded_recorded (length : AllocationLength)
    : ofRecorded length.recorded = length := by
  rw [ofRecorded, recorded, BitVec.extractLsb'_append_eq_right, BitVec.extractLsb'_append_eq_left]

/-- A long allocation descriptor, which ends with six bytes for the use of implementations. -/
def LongAllocation.spelled (allocation : LongAllocation) (use : Bytes) : Bytes :=
  Bytes.ofNat 4 allocation.length.recorded.toNat
    ++ (Bytes.ofNat 6 allocation.location.toNat ++ use)

theorem LongAllocation.reads_spelled (allocation : LongAllocation) {use : Bytes}
    (length : use.length = 6) (offset : Nat)
    : Reads decode offset (allocation.spelled use) allocation := by
  have read : Reads decode offset (allocation.spelled use)
      ⟨.ofRecorded allocation.length.recorded, allocation.location⟩ :=
    (Reads.uint32 _).bind ((Reads.uint48 _).bind ((Reads.skip use length).bind_last (.pure _)))
  rwa [AllocationLength.ofRecorded_recorded] at read

/-- A long allocation descriptor whose last six bytes are open. -/
def LongAllocation.layout (allocation : LongAllocation) : Template :=
  .sequence [.uint32 allocation.length.recorded, .uint48 allocation.location, .blank 6]

theorem LongAllocation.recovers (allocation : LongAllocation)
    : Recovers decode allocation.layout allocation := by
  have read : Recovers decode allocation.layout
      ⟨.ofRecorded allocation.length.recorded, allocation.location⟩ :=
    (Recovers.uint32 _).bind ((Recovers.uint48 _).bind ((Recovers.skip 6).bind (.pure _)))
  rwa [AllocationLength.ofRecorded_recorded] at read

def Extent.layout (extent : Extent) : Template :=
  .sequence [.uint32 extent.length, .uint32 extent.location]

theorem Extent.recovers (extent : Extent) : Recovers decode extent.layout extent :=
  .require (by simp [layout]) ((Recovers.uint32 _).bind ((Recovers.uint32 _).bind (.pure _)))

namespace EntityId

/-- The parts of an entity identifier have the sizes they are recorded in. -/
structure IsRecordable (entity : EntityId) : Prop where
  identifier : entity.identifier.length = 23
  suffix : entity.suffix.length = 8

def layout (entity : EntityId) : Template :=
  .sequence [.uint8 entity.flags, .recorded entity.identifier, .recorded entity.suffix]

theorem IsRecordable.recovers {entity : EntityId} (recordable : entity.IsRecordable)
    : Recovers decode entity.layout entity := by
  refine .require (by simp [layout, size, recordable.identifier, recordable.suffix]) ?_
  refine (Recovers.uint8 _).bind ((Recovers.take recordable.identifier).bind ?_)
  exact (Recovers.take recordable.suffix).bind (.pure _)

end EntityId

namespace CharacterSet

def layout (characters : CharacterSet) : Template :=
  .sequence [.uint8 characters.type, .recorded characters.information]

/-- What a character set is made of has the size it is recorded in. -/
def IsRecordable (characters : CharacterSet) : Prop := characters.information.length = 63

theorem IsRecordable.recovers {characters : CharacterSet} (recordable : characters.IsRecordable)
    : Recovers decode characters.layout characters := by
  have length : characters.information.length = 63 := recordable
  refine .require (by simp [layout, length]) ?_
  exact (Recovers.uint8 _).bind ((Recovers.take length).bind (.pure _))

end CharacterSet

namespace ImplementationUse

/-- The data fill what a total size leaves behind the entity identifier. -/
structure IsRecordable (use : ImplementationUse) (total : Nat) : Prop where
  entity : use.entity.IsRecordable
  data : use.data.length = total - EntityId.size

def layout (use : ImplementationUse) : Template :=
  .sequence [use.entity.layout, .recorded use.data]

theorem IsRecordable.recovers {use : ImplementationUse} {total : Nat}
    (recordable : use.IsRecordable total)
    : Recovers (decode total) use.layout use := by
  have length : use.data.length = ((total : Int) - EntityId.size).toNat := by
    rw [recordable.data]
    omega
  exact recordable.entity.recovers.bind ((Recovers.take length).bind (.pure _))

end ImplementationUse

end DiscVolume
