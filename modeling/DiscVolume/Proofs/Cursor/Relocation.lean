import DiscVolume.Descriptor.Entity
import DiscVolume.Descriptor.Extent
import DiscVolume.Proofs.Cursor.Steps

/-! Decoders that may be moved. A cursor is moved when bytes are put in front of its buffer and
others behind it. What a movable decoder finds at a cursor it finds at every cursor that this one is
moved to, and it stops at the moved place. Fields are movable and pass over a fixed number of bytes.
-/

namespace DiscVolume

/-- The same place after bytes have been put in front of the buffer and others behind it. -/
def Cursor.moved (cursor : Cursor) (shift : Nat) (behind : Bytes) : Cursor :=
  ⟨shift + cursor.offset, cursor.rest ++ behind⟩

namespace Decoder

open Sequencing

/-- Where one decoder finds a value, another one finds it at the moved place. -/
def Moves (shift : Nat) (behind : Bytes) (decoder other : Decoder α) : Prop :=
  ∀ cursor value next, decoder cursor = .ok value next
    → other (cursor.moved shift behind) = .ok value (next.moved shift behind)

namespace Moves

variable {shift : Nat} {behind : Bytes}

theorem bind {first second : Decoder α} {others rest : α → Decoder β}
    (head : Moves shift behind first second)
    (tail : ∀ value, Moves shift behind (others value) (rest value))
    : Moves shift behind (first >>= others) (second >>= rest) := by
  intro cursor value next found
  obtain ⟨middle, reached, foundFirst, foundRest⟩ := bind_eq_ok.mp found
  rw [bind_of_ok (head _ _ _ foundFirst)]
  exact tail _ _ _ _ foundRest

/-- A position is the only thing that is found to be another one at a moved place. -/
theorem position {others rest : Nat → Decoder β}
    (tail : ∀ place, Moves shift behind (others place) (rest (shift + place)))
    : Moves shift behind (Decoder.position >>= others) (Decoder.position >>= rest) :=
  fun cursor => tail cursor.offset cursor

/-- A step that succeeds without moving, and at the moved place too. -/
theorem of_stays {decoder other : Decoder α}
    (stays : ∀ cursor value next, decoder cursor = .ok value next
      → next = cursor
        ∧ other (cursor.moved shift behind) = .ok value (cursor.moved shift behind))
    : Moves shift behind decoder other := by
  intro cursor value next found
  obtain ⟨rfl, moved⟩ := stays cursor value next found
  exact moved

end Moves

/-- A decoder that finds the same at every place that a cursor is moved to. -/
class Movable (decoder : Decoder α) : Prop where
  moves (shift : Nat) (behind : Bytes) : Moves shift behind decoder decoder

/-- A movable decoder that passes over a number of bytes. -/
class Field (decoder : Decoder α) (size : outParam Nat) : Prop extends Movable decoder where
  advances {cursor next : Cursor} {value : α} (found : decoder cursor = .ok value next)
    : next = cursor.advance size

theorem Field.offset_eq {decoder : Decoder α} {size : Nat} [Field decoder size]
    {cursor next : Cursor} {value : α} (found : decoder cursor = .ok value next)
    : next.offset = cursor.offset + size := by
  rw [Field.advances found, Cursor.advance]

theorem Field.resize {decoder : Decoder α} {size other : Nat} (field : Field decoder size)
    (same : size = other)
    : Field decoder other :=
  same ▸ field

-----------------------------------------------------------------------------------------
-- Combinations
-----------------------------------------------------------------------------------------

instance (value : α) : Field (pure value : Decoder α) 0 where
  moves _ _ _ _ _ found := by
    cases found
    rfl
  advances found := by
    cases found
    rfl

instance (failure : Failure) : Movable (throw failure : Decoder α) where
  moves _ _ _ _ _ found := by cases found

instance (first : Decoder α) (others : α → Decoder β) [Movable first]
    [∀ value, Movable (others value)] : Movable (first >>= others) where
  moves shift behind := (Movable.moves shift behind).bind fun _ => Movable.moves shift behind

instance (first : Decoder α) (others : α → Decoder β) (size rest : Nat) [Field first size]
    [∀ value, Field (others value) rest] : Field (first >>= others) (size + rest) where
  advances found := by
    obtain ⟨_, _, foundFirst, foundRest⟩ := bind_eq_ok.mp found
    rw [Field.advances foundRest, Field.advances foundFirst, Cursor.advance_advance]

/-- Steps that pass over nothing make up one that passes over nothing. -/
instance (priority := low) (first : Decoder α) (others : α → Decoder β) [Field first 0]
    [∀ value, Field (others value) 0] : Field (first >>= others) 0 :=
  inferInstanceAs (Field _ (0 + 0))

instance (decoder : Decoder α) (f : α → β) [Movable decoder] : Movable (f <$> decoder) where
  moves shift behind cursor value next found := by
    obtain ⟨inner, foundInner, rfl⟩ := map_eq_ok.mp found
    exact map_eq_ok.mpr ⟨inner, Movable.moves shift behind _ _ _ foundInner, rfl⟩

instance (decoder : Decoder α) (f : α → β) (size : Nat) [Field decoder size]
    : Field (f <$> decoder) size where
  advances found := by
    obtain ⟨_, foundInner, -⟩ := map_eq_ok.mp found
    exact Field.advances foundInner

instance (condition : Prop) [Decidable condition] (a b : Decoder α) [Movable a] [Movable b]
    : Movable (if condition then a else b) := by
  split <;> infer_instance

instance (condition : Prop) [Decidable condition] (a b : Decoder α) (size : Nat) [Field a size]
    [Field b size] : Field (if condition then a else b) size := by
  split <;> infer_instance

instance (decoder : Decoder α) (count size : Nat) [Field decoder size]
    : Field (times decoder count) (count * size) := by
  induction count with
  | zero =>
      rw [Nat.zero_mul]
      exact inferInstanceAs (Field (pure []) 0)
  | succ count ih =>
      unfold times
      refine .resize inferInstance ?_
      rw [Nat.succ_mul, Nat.add_comm, Nat.add_zero]

-----------------------------------------------------------------------------------------
-- Bytes and numbers
-----------------------------------------------------------------------------------------

theorem le_remaining_moved {cursor : Cursor} {count shift : Nat} {behind : Bytes}
    (enough : count ≤ cursor.remaining)
    : count ≤ (cursor.moved shift behind).remaining := by
  rw [Cursor.remaining] at enough
  rw [Cursor.remaining, Cursor.moved, List.length_append]
  omega

instance (count : Nat) : Field (take count) count where
  moves shift behind cursor value next found := by
    obtain ⟨enough, rfl, rfl⟩ := le_remaining_of_take found
    rw [take_eq_ok (le_remaining_moved enough)]
    simp only [Cursor.moved, Cursor.advance, List.take_append_of_le_length enough,
      List.drop_append_of_le_length enough, Nat.add_assoc]
  advances found := (le_remaining_of_take found).2.2

instance (count : Nat) : Field (peek count) 0 where
  moves shift behind := .of_stays fun cursor value next found => by
    obtain ⟨enough, rfl, rfl⟩ := le_remaining_of_peek found
    refine ⟨rfl, ?_⟩
    rw [peek_eq_ok (le_remaining_moved enough), Cursor.moved,
      List.take_append_of_le_length enough]
  advances found := (le_remaining_of_peek found).2.2

instance (count : Nat) : Field (require count) 0 where
  moves shift behind := .of_stays fun cursor value next found => by
    obtain ⟨enough, rfl⟩ := le_remaining_of_require found
    exact ⟨rfl, require_eq_ok (le_remaining_moved enough)⟩
  advances found := (le_remaining_of_require found).2

instance : Field peekUInt16 0 where
  moves shift behind := .of_stays fun cursor value next found => by
    unfold peekUInt16 at found
    split at found
    · next covered =>
        have enough := Bytes.covers_iff.mp covered
        cases found
        refine ⟨rfl, ?_⟩
        rw [peekUInt16_eq_ok (le_remaining_moved enough), Cursor.moved,
          List.take_append_of_le_length enough]
    · cases found
  advances found := stays_of_peekUInt16 found

instance (condition : Bool) (cause : Defect) : Field (demand condition cause) 0 where
  moves shift behind := .of_stays fun cursor value next found => by
    obtain ⟨holds, rfl⟩ := demand_eq_ok found
    exact ⟨rfl, demand_of_true holds⟩
  advances found := (demand_eq_ok found).2

instance (outcome : Except Failure α) : Field (settle outcome) 0 where
  moves shift behind := .of_stays fun cursor value next found => by
    obtain ⟨holds, rfl⟩ := settle_eq_ok.mp found
    exact ⟨rfl, settle_eq_ok.mpr ⟨holds, rfl⟩⟩
  advances found := (settle_eq_ok.mp found).2

instance (count : Nat) : Field (skip count) count := by unfold skip; infer_instance
instance : Field uint8 1 := by unfold uint8; infer_instance
instance : Field uint16 2 := by unfold uint16; infer_instance
instance : Field uint32 4 := by unfold uint32; infer_instance
instance : Field uint48 6 := by unfold uint48; infer_instance
instance : Field uint64 8 := by unfold uint64; infer_instance

instance (size : Nat) : Field (dstring size) size := by unfold dstring; infer_instance

instance (length : Nat) : Field (dcharacters length) length := by
  unfold dcharacters
  split
  · next empty =>
      rw [empty]
      infer_instance
  · refine .resize inferInstance ?_
    omega

instance : Field timestamp timestampSize := by unfold timestamp; infer_instance

-----------------------------------------------------------------------------------------
-- What descriptors share
-----------------------------------------------------------------------------------------

instance : Field EntityId.decode EntityId.size := by unfold EntityId.decode; infer_instance
instance : Field CharacterSet.decode 64 := by unfold CharacterSet.decode; infer_instance

instance (total : Int)
    : Field (ImplementationUse.decode total)
        (EntityId.size + (total - EntityId.size).toNat) := by
  unfold ImplementationUse.decode
  infer_instance

instance : Field Extent.decode 8 := by unfold Extent.decode; infer_instance
instance : Field ShortAllocation.decode 8 := by unfold ShortAllocation.decode; infer_instance
instance : Field LongAllocation.decode 16 := by unfold LongAllocation.decode; infer_instance
instance : Field BlockAddress.decode 6 := by unfold BlockAddress.decode; infer_instance

end Decoder

end DiscVolume
