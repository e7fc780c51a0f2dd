import DiscVolume.Volume

/-! Where the blocks of a partition lie. The numbers that can be recorded for an allocation are
small enough for the offsets and sizes that files can deal with.
-/

namespace DiscVolume

theorem FileData.block_lt (data : FileData)
    : ∀ piece ∈ data.allocations, piece.1 < UInt32.size := by
  intro piece member
  cases data with
  | embedded bytes => simp [allocations] at member
  | short recorded =>
      obtain ⟨allocation, -, rfl⟩ := List.mem_map.mp member
      exact allocation.block.toNat_lt
  | long recorded =>
      obtain ⟨allocation, -, rfl⟩ := List.mem_map.mp member
      exact allocation.block.toNat_lt

/-- The lengths of allocations have thirty bits. -/
theorem FileData.length_lt (data : FileData) : ∀ piece ∈ data.allocations, piece.2 < 0x40000000 := by
  intro piece member
  cases data with
  | embedded bytes => simp [allocations] at member
  | short recorded =>
      obtain ⟨allocation, -, rfl⟩ := List.mem_map.mp member
      exact allocation.length.bytes.isLt
  | long recorded =>
      obtain ⟨allocation, -, rfl⟩ := List.mem_map.mp member
      exact allocation.length.bytes.isLt

/-- The offset of a sector with a number of four bytes is one that files can deal with. -/
theorem sector_offset_lt (sector : UInt32)
    : ((sector.toNat * sectorSize : Nat) : Int) < indexLimit := by
  have small := sector.toNat_lt
  rw [sectorSize, indexLimit]
  omega

/-- Whole sectors for an allocation are a number of bytes that files can deal with. -/
theorem sectorsFor_mul_lt {length : Nat} (short : length < 0x40000000)
    : ((sectorsFor length * sectorSize : Nat) : Int) < indexLimit := by
  rw [sectorsFor, sectorSize, indexLimit]
  omega

/-- The offset of a recorded block is one that files can deal with. -/
theorem Volume.offsetOf_lt {volume : Volume σ} {block : Nat} (recorded : block < UInt32.size)
    : (volume.offsetOf block : Int) < indexLimit := by
  have start := volume.partition.startLocation.toNat_lt
  rw [UInt32.size] at recorded
  rw [offsetOf, sectorOf, sectorSize, indexLimit]
  omega

/-- The end of an allocation is one that files can deal with, too. -/
theorem Volume.offsetOf_add_lt {volume : Volume σ} {block length : Nat}
    (recorded : block < UInt32.size) (short : length < 0x40000000)
    : (volume.offsetOf block : Int) + length < indexLimit := by
  have start := volume.partition.startLocation.toNat_lt
  rw [UInt32.size] at recorded
  rw [offsetOf, sectorOf, sectorSize, indexLimit]
  omega

end DiscVolume
