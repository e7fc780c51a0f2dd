import DiscVolume.Bytes
import DiscVolume.Failure

/-! A cursor over a buffer, and decoders that read from it. A decoder keeps the cursor when it
fails, because the place where reading stopped can be looked at. Every read checks that enough
bytes are left: running off the end is a failure and never a short answer.
-/

namespace DiscVolume

/-- A place in a buffer: the number of bytes passed over and the bytes that are left. -/
structure Cursor where
  offset : Nat
  rest : Bytes
  deriving DecidableEq, Repr

namespace Cursor

/-- The start of a buffer. -/
def ofBytes (buffer : Bytes) : Cursor := ⟨0, buffer⟩

/-- The number of bytes left. -/
def remaining (cursor : Cursor) : Nat := cursor.rest.length

/-- The size of the whole buffer. -/
def size (cursor : Cursor) : Nat := cursor.offset + cursor.remaining

def atEnd (cursor : Cursor) : Bool := cursor.rest.isEmpty

/-- The cursor moved on by a number of bytes. -/
def advance (cursor : Cursor) (count : Nat) : Cursor :=
  ⟨cursor.offset + count, cursor.rest.drop count⟩

theorem size_advance {cursor : Cursor} {count : Nat} (h : count ≤ cursor.remaining)
    : (cursor.advance count).size = cursor.size := by
  simp only [size, remaining, advance, List.length_drop] at *
  omega

theorem atEnd_iff {cursor : Cursor} : cursor.atEnd ↔ cursor.remaining = 0 := by
  simp [atEnd, remaining]

end Cursor

/-- A reading step over a cursor. Failing steps also say where the cursor was left. -/
abbrev Decoder := EStateM Failure Cursor

/-- What a decoder finds at a cursor. -/
def Decoder.value (decoder : Decoder α) (cursor : Cursor) : Except Failure α :=
  match decoder cursor with
  | .ok value _ => .ok value
  | .error failure _ => .error failure

namespace Decoder

/-- Fails, leaving the cursor where it is, unless a number of bytes is left. -/
def require (count : Nat) : Decoder Unit := fun cursor =>
  if Bytes.covers count cursor.rest then .ok () cursor
  else .error (.truncated (.buffer count cursor.offset cursor.size)) cursor

/-- The next bytes, passed over. -/
def take (count : Nat) : Decoder Bytes := fun cursor =>
  if Bytes.covers count cursor.rest then
    .ok (cursor.rest.take count) (cursor.advance count)
  else .error (.truncated (.buffer count cursor.offset cursor.size)) cursor

/-- Passes over bytes whose contents do not matter. -/
def skip (count : Nat) : Decoder Unit := do
  let _ ← take count
  return ()

/-- The next bytes, without passing over them. -/
def peek (count : Nat) : Decoder Bytes := fun cursor =>
  if Bytes.covers count cursor.rest then .ok (cursor.rest.take count) cursor
  else .error (.truncated (.buffer count cursor.offset cursor.size)) cursor

/-- Fails with a cause unless a condition holds. -/
def demand (condition : Bool) (cause : Defect) : Decoder Unit :=
  if condition then pure () else throw (.malformed cause)

/-- Reads the same thing a number of times. -/
def times (decoder : Decoder α) : Nat → Decoder (List α)
  | 0 => pure []
  | count + 1 => do
      let first ← decoder
      let others ← times decoder count
      return first :: others

def uint8 : Decoder UInt8 := do
  return UInt8.ofNat (Bytes.littleEndian (← take 1))

def uint16 : Decoder UInt16 := do
  return UInt16.ofNat (Bytes.littleEndian (← take 2))

def uint32 : Decoder UInt32 := do
  return UInt32.ofNat (Bytes.littleEndian (← take 4))

def uint64 : Decoder UInt64 := do
  return UInt64.ofNat (Bytes.littleEndian (← take 8))

/-- A six-byte number. -/
def uint48 : Decoder (BitVec 48) := do
  return BitVec.ofNat 48 (Bytes.littleEndian (← take 6))

/-- The two-byte number that follows, without passing over it. -/
def peekUInt16 : Decoder UInt16 := fun cursor =>
  if Bytes.covers 2 cursor.rest then
    .ok (UInt16.ofNat (Bytes.littleEndian (cursor.rest.take 2))) cursor
  else .error (.truncated .lookAhead) cursor

/-- The number of bytes passed over so far. -/
def position : Decoder Nat := fun cursor => .ok cursor.offset cursor

/-- A decoder that passes over bytes or stays, and never goes back. -/
class Advancing (decoder : Decoder α) : Prop where
  offset_le {cursor next : Cursor} {value : α} (h : decoder cursor = .ok value next)
    : cursor.offset ≤ next.offset

/-- A decoder that passes over at least one byte whenever it succeeds. -/
class Progressing (decoder : Decoder α) : Prop where
  offset_lt {cursor next : Cursor} {value : α} (h : decoder cursor = .ok value next)
    : cursor.offset < next.offset

/-- A sequence of steps succeeds when the first does and the others do where it stopped. -/
theorem bind_eq_ok {first : Decoder α} {others : α → Decoder β} {cursor last : Cursor}
    {value : β}
    : (first >>= others) cursor = .ok value last
      ↔ ∃ middle next, first cursor = .ok middle next ∧ others middle next = .ok value last := by
  change EStateM.bind first others cursor = _ ↔ _
  unfold EStateM.bind
  cases h : first cursor with
  | ok middle next =>
      exact ⟨fun tail => ⟨middle, next, rfl, tail⟩, fun ⟨_, _, head, tail⟩ => by
        cases head
        exact tail⟩
  | error failure next => simp

instance (value : α) : Advancing (pure value : Decoder α) where
  offset_le h := by
    cases h
    exact Nat.le_refl _

instance (failure : Failure) : Advancing (throw failure : Decoder α) where
  offset_le h := by cases h

instance (first : Decoder α) (others : α → Decoder β) [Advancing first]
    [∀ value, Advancing (others value)] : Advancing (first >>= others) where
  offset_le h := by
    obtain ⟨_, _, head, tail⟩ := bind_eq_ok.1 h
    exact Nat.le_trans (Advancing.offset_le head) (Advancing.offset_le tail)

instance (decoder : Decoder α) (f : α → β) [Advancing decoder]
    : Advancing (f <$> decoder) where
  offset_le {cursor next value} h := by
    change EStateM.map f decoder cursor = _ at h
    unfold EStateM.map at h
    split at h
    · cases h
      exact Advancing.offset_le ‹_›
    · cases h

instance (decoder : Decoder α) (f : α → β) [Progressing decoder]
    : Progressing (f <$> decoder) where
  offset_lt {cursor next value} h := by
    change EStateM.map f decoder cursor = _ at h
    unfold EStateM.map at h
    split at h
    · cases h
      exact Progressing.offset_lt ‹_›
    · cases h

instance (condition : Prop) [Decidable condition] (a b : Decoder α) [Advancing a] [Advancing b]
    : Advancing (if condition then a else b) where
  offset_le h := by
    split at h
    · exact Advancing.offset_le h
    · exact Advancing.offset_le h

/-- Taking bytes passes over just those. -/
theorem offset_of_take {count : Nat} {cursor next : Cursor} {bytes : Bytes}
    (h : take count cursor = .ok bytes next)
    : next.offset = cursor.offset + count := by
  unfold take at h
  split at h
  · cases h
    rfl
  · cases h

instance (count : Nat) : Advancing (take count) where
  offset_le h := by
    rw [offset_of_take h]
    exact Nat.le_add_right _ _

instance (count : Nat) : Progressing (take (count + 1)) where
  offset_lt h := by
    rw [offset_of_take h]
    omega

instance (count : Nat) : Advancing (require count) where
  offset_le h := by
    unfold require at h
    split at h <;> cases h
    exact Nat.le_refl _

instance (count : Nat) : Advancing (peek count) where
  offset_le h := by
    unfold peek at h
    split at h <;> cases h
    exact Nat.le_refl _

instance : Advancing peekUInt16 where
  offset_le h := by
    unfold peekUInt16 at h
    split at h <;> cases h
    exact Nat.le_refl _

instance : Advancing position where
  offset_le h := by
    cases h
    exact Nat.le_refl _

instance (count : Nat) : Advancing (skip count) := by unfold skip; infer_instance

instance (condition : Bool) (cause : Defect) : Advancing (demand condition cause) := by
  unfold demand; infer_instance

instance (decoder : Decoder α) [Advancing decoder] (count : Nat)
    : Advancing (times decoder count) := by
  induction count with
  | zero => unfold times; infer_instance
  | succ count ih => unfold times; infer_instance

instance : Advancing uint8 := by unfold uint8; infer_instance
instance : Advancing uint16 := by unfold uint16; infer_instance
instance : Advancing uint32 := by unfold uint32; infer_instance
instance : Advancing uint64 := by unfold uint64; infer_instance
instance : Advancing uint48 := by unfold uint48; infer_instance

/-- Progress in the first step is progress of the whole. -/
instance (first : Decoder α) (others : α → Decoder β) [Progressing first]
    [∀ value, Advancing (others value)] : Progressing (first >>= others) where
  offset_lt h := by
    obtain ⟨_, _, head, tail⟩ := bind_eq_ok.1 h
    exact Nat.lt_of_lt_of_le (Progressing.offset_lt head) (Advancing.offset_le tail)

/-- Progress in the steps after the first is progress of the whole. -/
instance (first : Decoder α) (others : α → Decoder β) [Advancing first]
    [∀ value, Progressing (others value)] : Progressing (first >>= others) where
  offset_lt h := by
    obtain ⟨_, _, head, tail⟩ := bind_eq_ok.1 h
    exact Nat.lt_of_le_of_lt (Advancing.offset_le head) (Progressing.offset_lt tail)

instance : Progressing uint8 := by unfold uint8; infer_instance
instance : Progressing uint16 := by unfold uint16; infer_instance
instance : Progressing uint32 := by unfold uint32; infer_instance

end Decoder

end DiscVolume
