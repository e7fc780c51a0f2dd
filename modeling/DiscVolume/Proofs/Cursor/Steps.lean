import DiscVolume.Cursor.Fields
import DiscVolume.Proofs.Sequencing

/-! How the steps of a decoder are followed one by one: each read has one equation for a cursor
with enough bytes left, and sequences pass on what their first step does.
-/

namespace DiscVolume

namespace Cursor

/-- Moving on twice is moving on by the sum. -/
@[simp]
theorem advance_advance (cursor : Cursor) (first second : Nat)
    : (cursor.advance first).advance second = cursor.advance (first + second) := by
  simp [advance, Nat.add_assoc]

@[simp]
theorem rest_advance (cursor : Cursor) (count : Nat)
    : (cursor.advance count).rest = cursor.rest.drop count := rfl

@[simp]
theorem remaining_advance (cursor : Cursor) (count : Nat)
    : (cursor.advance count).remaining = cursor.remaining - count := by
  simp [remaining]

end Cursor

namespace Decoder

open Sequencing

variable {cursor next : Cursor}

theorem take_eq_ok {count : Nat} (h : count ≤ cursor.remaining)
    : take count cursor = .ok (cursor.rest.take count) (cursor.advance count) :=
  if_pos (Bytes.covers_iff.mpr h)

theorem peek_eq_ok {count : Nat} (h : count ≤ cursor.remaining)
    : peek count cursor = .ok (cursor.rest.take count) cursor :=
  if_pos (Bytes.covers_iff.mpr h)

/-- Bytes that are not all there cannot be looked at. -/
theorem peek_eq_error {count : Nat} (h : cursor.remaining < count)
    : peek count cursor
      = .error (.truncated (.buffer count cursor.offset cursor.size)) cursor := by
  refine if_neg fun covers => ?_
  have enough : count ≤ cursor.remaining := Bytes.covers_iff.mp covers
  omega

theorem require_eq_ok {count : Nat} (h : count ≤ cursor.remaining)
    : require count cursor = .ok () cursor :=
  if_pos (Bytes.covers_iff.mpr h)

theorem uint8_eq_ok (h : 1 ≤ cursor.remaining)
    : uint8 cursor
      = .ok (.ofNat (Bytes.littleEndian (cursor.rest.take 1))) (cursor.advance 1) :=
  bind_of_ok (take_eq_ok h)

/-- A byte that is there is read. -/
theorem uint8_of_getElem? {byte : UInt8} (there : cursor.rest[0]? = some byte)
    : uint8 cursor = .ok byte (cursor.advance 1) := by
  obtain ⟨rest, spelled⟩ : ∃ rest, cursor.rest = byte :: rest := by
    cases stored : cursor.rest with
    | nil => simp [stored] at there
    | cons first rest => exact ⟨rest, by simpa [stored] using there⟩
  have enough : 1 ≤ cursor.remaining := by
    rw [Cursor.remaining, spelled]
    exact Nat.succ_le_succ (Nat.zero_le _)
  rw [uint8_eq_ok enough, spelled]
  simp [Bytes.littleEndian]

theorem uint16_eq_ok (h : 2 ≤ cursor.remaining)
    : uint16 cursor
      = .ok (.ofNat (Bytes.littleEndian (cursor.rest.take 2))) (cursor.advance 2) :=
  bind_of_ok (take_eq_ok h)

theorem uint32_eq_ok (h : 4 ≤ cursor.remaining)
    : uint32 cursor
      = .ok (.ofNat (Bytes.littleEndian (cursor.rest.take 4))) (cursor.advance 4) :=
  bind_of_ok (take_eq_ok h)

theorem peekUInt16_eq_ok (h : 2 ≤ cursor.remaining)
    : peekUInt16 cursor = .ok (.ofNat (Bytes.littleEndian (cursor.rest.take 2))) cursor :=
  if_pos (Bytes.covers_iff.mpr h)

/-- Looking at a number moves nothing. -/
theorem stays_of_peekUInt16 {value : UInt16} (h : peekUInt16 cursor = .ok value next)
    : next = cursor := by
  unfold peekUInt16 at h
  split at h
  · cases h
    rfl
  · cases h

/-- Settling an outcome moves nothing and finds what the outcome holds. -/
theorem settle_eq_ok {outcome : Except Failure α} {value : α}
    : settle outcome cursor = .ok value next ↔ outcome = .ok value ∧ next = cursor := by
  cases outcome with
  | ok found =>
      constructor
      · intro settled
        cases settled
        exact ⟨rfl, rfl⟩
      · rintro ⟨found, rfl⟩
        cases found
        rfl
  | error failure =>
      constructor
      · intro settled
        cases settled
      · rintro ⟨found, -⟩
        cases found

/-- Settling an outcome fails just as the outcome says. -/
theorem settle_eq_error {outcome : Except Failure α} {failure : Failure}
    : settle outcome cursor = .error failure next ↔ outcome = .error failure ∧ next = cursor := by
  cases outcome with
  | ok found =>
      constructor
      · intro settled
        cases settled
      · rintro ⟨found, -⟩
        cases found
  | error failure =>
      constructor
      · intro settled
        cases settled
        exact ⟨rfl, rfl⟩
      · rintro ⟨found, rfl⟩
        cases found
        rfl

/-- A step that succeeds only if bytes are left says that they are. -/
theorem le_remaining_of_peek {count : Nat} {bytes : Bytes}
    (h : peek count cursor = .ok bytes next)
    : count ≤ cursor.remaining ∧ bytes = cursor.rest.take count ∧ next = cursor := by
  unfold peek at h
  split at h
  · next covered =>
      cases h
      exact ⟨Bytes.covers_iff.mp covered, rfl, rfl⟩
  · cases h

theorem le_remaining_of_take {count : Nat} {bytes : Bytes}
    (h : take count cursor = .ok bytes next)
    : count ≤ cursor.remaining ∧ bytes = cursor.rest.take count
      ∧ next = cursor.advance count := by
  unfold take at h
  split at h
  · next covered =>
      cases h
      exact ⟨Bytes.covers_iff.mp covered, rfl, rfl⟩
  · cases h

theorem le_remaining_of_require {count : Nat} {value : Unit}
    (h : require count cursor = .ok value next)
    : count ≤ cursor.remaining ∧ next = cursor := by
  unfold require at h
  split at h
  · next covered =>
      cases h
      exact ⟨Bytes.covers_iff.mp covered, rfl⟩
  · cases h

/-- A step that fails for want of bytes says so. -/
theorem truncated_of_take {count : Nat} {failure : Failure}
    (h : take count cursor = .error failure next)
    : ∃ truncation, failure = .truncated truncation := by
  unfold take at h
  split at h <;> cases h
  exact ⟨_, rfl⟩

theorem truncated_of_require {count : Nat} {failure : Failure}
    (h : require count cursor = .error failure next)
    : ∃ truncation, failure = .truncated truncation := by
  unfold require at h
  split at h <;> cases h
  exact ⟨_, rfl⟩

theorem truncated_of_peek {count : Nat} {failure : Failure}
    (h : peek count cursor = .error failure next)
    : ∃ truncation, failure = .truncated truncation := by
  unfold peek at h
  split at h <;> cases h
  exact ⟨_, rfl⟩

theorem demand_of_true {condition : Bool} {cause : Defect} (h : condition = true)
    : demand condition cause cursor = .ok () cursor := by
  rw [demand, if_pos h]
  rfl

theorem demand_of_false {condition : Bool} {cause : Defect} (h : condition = false)
    : demand condition cause cursor = .error (.malformed cause) cursor := by
  rw [demand, if_neg (by simp [h])]
  rfl

/-- A demand that is met holds, and moves nothing. -/
theorem demand_eq_ok {condition : Bool} {cause : Defect} {value : Unit}
    (h : demand condition cause cursor = .ok value next)
    : condition = true ∧ next = cursor := by
  unfold demand at h
  split at h
  · next holds =>
      cases h
      exact ⟨holds, rfl⟩
  · cases h

/-- Only behind a demand that is met can the data end too early. -/
theorem demand_bind_truncated_iff {condition : Bool} {cause : Defect} {others : Unit → Decoder α}
    {truncation : Truncation}
    : (demand condition cause >>= others) cursor = .error (.truncated truncation) next
      ↔ condition = true ∧ others () cursor = .error (.truncated truncation) next := by
  cases condition with
  | true => rw [bind_of_ok (demand_of_true rfl), and_iff_right rfl]
  | false =>
      rw [bind_of_error (demand_of_false rfl)]
      simp

/-- Every value that a decoder delivers has a property. -/
def Yields (decoder : Decoder α) (property : α → Prop) : Prop :=
  ∀ cursor value next, decoder cursor = .ok value next → property value

theorem yields_pure {property : α → Prop} {value : α} (h : property value)
    : Yields (pure value) property := by
  intro cursor result next yielded
  cases yielded
  exact h

/-- What all later steps yield is what a sequence yields. -/
theorem yields_bind {first : Decoder α} {others : α → Decoder β} {property : β → Prop}
    (h : ∀ value, Yields (others value) property)
    : Yields (first >>= others) property := by
  intro cursor result next yielded
  obtain ⟨value, middle, -, tail⟩ := bind_eq_ok.mp yielded
  exact h value middle result next tail

end Decoder

end DiscVolume
