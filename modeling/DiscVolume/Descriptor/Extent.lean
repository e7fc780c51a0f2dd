import DiscVolume.Cursor

/-! Where data is recorded: extents of a volume, the two forms of allocation descriptor, and
block addresses (ECMA-167, Part 3, 7.1; Part 4, 7.1 and 14.14).
-/

namespace DiscVolume

open Decoder

/-- The forms in which a place is stated. -/
inductive PlacementForm where
  | extent
  | short
  | long
  deriving DecidableEq, Repr

/-- The name of a form in descriptions. -/
def PlacementForm.label : PlacementForm → String
  | extent => "UDFExtentAD"
  | short => "UDFShortAD"
  | long => "UDFLongAD"

/-- A place as it is stated before it is recorded, in numbers of any size and sign. -/
structure Placement where
  form : PlacementForm
  length : Int := 0
  location : Int := 0
  deriving DecidableEq, Repr

namespace Placement

def describe (placement : Placement) : String :=
  placement.form.label ++ "(length=" ++ toString placement.length ++ ", location="
    ++ toString placement.location ++ ")"

/-- Whether two places are one and the same extent. Allocations are never the same. -/
def isSameExtent (a b : Placement) : Bool := a.form = .extent && a = b

end Placement

/-- A run of whole sectors of the volume. -/
structure Extent where
  length : UInt32 := 0
  location : UInt32 := 0
  deriving DecidableEq, Repr

namespace Extent

def decode : Decoder Extent := do
  require 8
  let length ← uint32
  let location ← uint32
  return { length, location }

def placement (extent : Extent) : Placement :=
  ⟨.extent, extent.length.toNat, extent.location.toNat⟩

instance : Advancing decode := by unfold decode; infer_instance

end Extent

/-- The recorded length of an allocation: thirty bits of length below two bits of type. -/
structure AllocationLength where
  bytes : BitVec 30 := 0
  type : BitVec 2 := 0
  deriving DecidableEq, Repr

/-- Splits a recorded length into its two parts. -/
def AllocationLength.ofRecorded (recorded : UInt32) : AllocationLength where
  bytes := recorded.toBitVec.extractLsb' 0 30
  type := recorded.toBitVec.extractLsb' 30 2

/-- An allocation within the partition that holds the descriptor. -/
structure ShortAllocation where
  length : AllocationLength := {}
  block : UInt32 := 0
  deriving DecidableEq, Repr

namespace ShortAllocation

def decode : Decoder ShortAllocation := do
  require 8
  let recorded ← uint32
  let block ← uint32
  return { length := .ofRecorded recorded, block }

def placement (allocation : ShortAllocation) : Placement :=
  ⟨.short, allocation.length.bytes.toNat, allocation.block.toNat⟩

instance : Advancing decode := by unfold decode; infer_instance

end ShortAllocation

/-- An allocation in any partition. The recorded location is six bytes wide, with the partition
reference above the block number. The implementation use that follows is passed over.
-/
structure LongAllocation where
  length : AllocationLength := {}
  location : BitVec 48 := 0
  deriving DecidableEq, Repr

namespace LongAllocation

/-- The block within its partition. -/
def block (allocation : LongAllocation) : UInt32 := ⟨allocation.location.extractLsb' 0 32⟩

/-- The partition that holds the block. -/
def partitionReference (allocation : LongAllocation) : UInt16 :=
  ⟨allocation.location.extractLsb' 32 16⟩

def decode : Decoder LongAllocation := do
  let recorded ← uint32
  let location ← uint48
  skip 6
  return { length := .ofRecorded recorded, location }

def placement (allocation : LongAllocation) : Placement :=
  ⟨.long, allocation.length.bytes.toNat, allocation.location.toNat⟩

instance : Advancing decode := by unfold decode; infer_instance

end LongAllocation

/-- The address of a logical block. -/
structure BlockAddress where
  block : UInt32
  partitionReference : UInt16
  deriving DecidableEq, Repr

namespace BlockAddress

def decode : Decoder BlockAddress := do
  require 6
  let block ← uint32
  let partitionReference ← uint16
  return { block, partitionReference }

instance : Advancing decode := by unfold decode; infer_instance

end BlockAddress

end DiscVolume
