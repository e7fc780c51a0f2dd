import DiscVolume.Descriptor.Extent
import DiscVolume.Proofs.Cursor.Reading

/-! Decoders that look at nothing but what they pass over. What such a decoder finds is spelled by
these bytes, so it is found again wherever they stand at the same offset, whatever follows.
-/

namespace DiscVolume.Decoder

open Sequencing

/-- A decoder whose value is spelled by the bytes that it passes over. -/
class Confined (decoder : Decoder α) : Prop where
  exists_reads {cursor next : Cursor} {value : α} (found : decoder cursor = .ok value next)
    : ∃ data, cursor.rest = data ++ next.rest ∧ next.offset = cursor.offset + data.length
        ∧ Reads decoder cursor.offset data value

namespace Confined

instance (value : α) : Confined (pure value : Decoder α) where
  exists_reads found := by
    cases found
    exact ⟨[], rfl, rfl, .pure value⟩

instance (failure : Failure) : Confined (throw failure : Decoder α) where
  exists_reads found := by cases found

instance (first : Decoder α) (others : α → Decoder β) [Confined first]
    [∀ value, Confined (others value)] : Confined (first >>= others) where
  exists_reads found := by
    obtain ⟨_, _, head, tail⟩ := bind_eq_ok.mp found
    obtain ⟨front, rest_eq, offset_eq, readsFront⟩ := exists_reads head
    obtain ⟨back, rest_eq', offset_eq', readsBack⟩ := exists_reads tail
    rw [offset_eq] at readsBack
    refine ⟨front ++ back, ?_, ?_, readsFront.bind readsBack⟩
    · rw [rest_eq, rest_eq', List.append_assoc]
    · rw [offset_eq', offset_eq, List.length_append, Nat.add_assoc]

instance (condition : Prop) [Decidable condition] (a b : Decoder α) [Confined a] [Confined b]
    : Confined (if condition then a else b) := by
  split <;> infer_instance

instance (count : Nat) : Confined (take count) where
  exists_reads {cursor next value} found := by
    obtain ⟨enough, rfl, rfl⟩ := le_remaining_of_take found
    have length := List.length_take_of_le enough
    refine ⟨cursor.rest.take count, (List.take_append_drop _ _).symm, ?_, .take _ length⟩
    rw [Cursor.advance, length]

instance : Confined position where
  exists_reads {cursor next value} found := by
    cases found
    exact ⟨[], rfl, rfl, fun _ => rfl⟩

instance (condition : Bool) (cause : Defect) : Confined (demand condition cause) := by
  unfold demand
  infer_instance

instance (outcome : Except Failure α) : Confined (settle outcome) := by
  unfold settle
  split <;> infer_instance

instance (count : Nat) : Confined (skip count) := by unfold skip; infer_instance
instance : Confined uint8 := by unfold uint8; infer_instance
instance : Confined uint16 := by unfold uint16; infer_instance
instance : Confined uint32 := by unfold uint32; infer_instance
instance : Confined uint48 := by unfold uint48; infer_instance

instance (length : Nat) : Confined (dcharacters length) := by
  unfold dcharacters
  infer_instance

instance : Confined LongAllocation.decode := by unfold LongAllocation.decode; infer_instance

/-- To ask for bytes in advance is to look at no more than what is passed over, if all that is asked
for is.
-/
theorem require {count : Nat} {others : Unit → Decoder β} [Confined (others ())]
    (enough : ∀ cursor value next, others () cursor = .ok value next
      → cursor.offset + count ≤ next.offset)
    : Confined (Decoder.require count >>= others) where
  exists_reads {cursor next value} found := by
    obtain ⟨⟨⟩, middle, required, rest⟩ := bind_eq_ok.mp found
    obtain rfl := (le_remaining_of_require required).2
    obtain ⟨data, rest_eq, offset_eq, reads⟩ := exists_reads rest
    have passed := enough _ _ _ rest
    exact ⟨data, rest_eq, offset_eq, .require (by omega) reads⟩

end Confined

end DiscVolume.Decoder
