import DiscVolume.Proofs.Calendar.Instants
import DiscVolume.Proofs.Cursor.Templates
import DiscVolume.Proofs.Medium.Serving

/-! Recorded times. A time that is there is always passed over as a whole, and what is found are its
fields, carried. So what is found is the valid time of the instant that the fields stand for, and
nothing is found only for fields that are all zero or that lead out of the calendar.
-/

namespace DiscVolume

open Calendar Sequencing

namespace Calendar

/-- The fields of a time that are recorded in seven bytes, each within the range of its width. -/
def CivilTime.recorded (bytes : Bytes) : CivilTime where
  year := Bytes.littleEndian (bytes.slice 0 2)
  month := Bytes.littleEndian (bytes.slice 2 1)
  day := Bytes.littleEndian (bytes.slice 3 1)
  hour := Bytes.littleEndian (bytes.slice 4 1)
  minute := Bytes.littleEndian (bytes.slice 5 1)
  second := Bytes.littleEndian (bytes.slice 6 1)

end Calendar

namespace Decoder

variable {cursor : Cursor}

theorem skip_advance (place count : Nat) (h : place + count ≤ cursor.remaining)
    : skip count (cursor.advance place) = .ok () (cursor.advance (place + count)) := by
  have enough : count ≤ (cursor.advance place).remaining := by
    rw [Cursor.remaining_advance]
    omega
  rw [← Cursor.advance_advance]
  exact bind_of_ok (take_eq_ok enough)

/-- A number is read some way on from the bytes that spell it. -/
theorem number_advance (f : Nat → α) (place width : Nat) (h : place + width ≤ cursor.remaining)
    : (do return f (Bytes.littleEndian (← take width)) : Decoder α) (cursor.advance place)
      = .ok (f (Bytes.littleEndian (cursor.rest.slice place width)))
          (cursor.advance (place + width)) := by
  have enough : width ≤ (cursor.advance place).remaining := by
    rw [Cursor.remaining_advance]
    omega
  rw [← Cursor.advance_advance]
  exact bind_of_ok (take_eq_ok enough)

/-- Where a time is recorded, just its bytes are passed over, and seven of them are its fields. -/
theorem timestamp_eq_ok (enough : timestampSize ≤ cursor.remaining)
    : timestamp cursor
      = .ok (CivilTime.recorded (cursor.rest.slice 2 7)).carried? (cursor.advance timestampSize) := by
  have narrow (place : Nat)
      : (UInt8.ofNat (Bytes.littleEndian (cursor.rest.slice place 1))).toNat
        = Bytes.littleEndian (cursor.rest.slice place 1) :=
    (UInt8.toNat_ofNat' ..).trans (Nat.mod_eq_of_lt (Bytes.littleEndian_take_lt _ 1))
  have wide (place : Nat)
      : (UInt16.ofNat (Bytes.littleEndian (cursor.rest.slice place 2))).toNat
        = Bytes.littleEndian (cursor.rest.slice place 2) :=
    (UInt16.toNat_ofNat' ..).trans (Nat.mod_eq_of_lt (Bytes.littleEndian_take_lt _ 2))
  have steps : timestamp cursor
      = .ok (ofFields? (Bytes.littleEndian (cursor.rest.slice 2 2))
          (Bytes.littleEndian (cursor.rest.slice 4 1)) (Bytes.littleEndian (cursor.rest.slice 5 1))
          (Bytes.littleEndian (cursor.rest.slice 6 1)) (Bytes.littleEndian (cursor.rest.slice 7 1))
          (Bytes.littleEndian (cursor.rest.slice 8 1))) (cursor.advance timestampSize) := by
    refine (bind_of_ok (require_eq_ok enough)).trans ?_
    rw [timestampSize] at enough
    refine (bind_of_ok (skip_advance 0 2 (by omega))).trans ?_
    refine (bind_of_ok (number_advance _ 2 2 (by omega))).trans ?_
    refine (bind_of_ok (number_advance _ 4 1 (by omega))).trans ?_
    refine (bind_of_ok (number_advance _ 5 1 (by omega))).trans ?_
    refine (bind_of_ok (number_advance _ 6 1 (by omega))).trans ?_
    refine (bind_of_ok (number_advance _ 7 1 (by omega))).trans ?_
    refine (bind_of_ok (number_advance _ 8 1 (by omega))).trans ?_
    refine (bind_of_ok (skip_advance 9 3 (by omega))).trans ?_
    simp only [narrow, wide]
    rfl
  rw [steps]
  simp only [CivilTime.carried?, CivilTime.recorded, Bytes.slice_slice, Nat.reduceAdd,
    Nat.reduceLeDiff]

/-- A recorded time is always passed over. What is found depends on the seven bytes of its fields
alone: if it is a time, it is the only valid one of the instant that the fields stand for. Whatever
else is recorded with it, a valid time is found as it is.
-/
theorem timestamp_carries (enough : timestampSize ≤ cursor.remaining)
    : (∃ time, timestamp cursor = .ok time (cursor.advance timestampSize)
        ∧ (∀ other : Cursor, timestampSize ≤ other.remaining
          → other.rest.slice 2 7 = cursor.rest.slice 2 7
          → timestamp other = .ok time (other.advance timestampSize))
        ∧ ∀ civil ∈ time, civil.IsValid
          ∧ civil.instant = (CivilTime.recorded (cursor.rest.slice 2 7)).instant
          ∧ ∀ another : CivilTime, another.IsValid
            → another.instant = (CivilTime.recorded (cursor.rest.slice 2 7)).instant
            → another = civil)
      ∧ ∀ civil : CivilTime, civil.IsValid →
        Recovers timestamp (Template.timestamp (some civil)) (some civil) := by
  constructor
  · refine ⟨_, timestamp_eq_ok enough, ?_, ?_⟩
    · intro other present same
      rw [timestamp_eq_ok present, same]
    · intro civil found
      obtain ⟨valid, instant⟩ := CivilTime.isValid_of_carried found
      refine ⟨valid, instant, ?_⟩
      intro another otherValid otherInstant
      exact otherValid.eq_of_instant_eq valid (otherInstant.trans instant.symm)
  · intro civil valid
    apply Recovers.timestamp
    intro found same
    cases same
    exact valid

/-- The 28th of February 2020 at 24:60:61, between bytes that do not matter. -/
def lateEvening : Cursor := .ofBytes [1, 16, 228, 7, 2, 28, 24, 60, 61, 7, 8, 9]

/-- Seconds, minutes and hours carry on to the leap day. -/
theorem timestamp_carries_lateEvening
    : timestampSize ≤ lateEvening.remaining
      ∧ timestamp lateEvening = .ok (some ⟨2020, 2, 29, 1, 1, 1⟩)
          (lateEvening.advance timestampSize) := by
  have enough : timestampSize ≤ lateEvening.remaining := by decide
  refine ⟨enough, ?_⟩
  obtain ⟨⟨time, found, -, carried⟩, -⟩ := timestamp_carries enough
  cases time with
  | none =>
      have same := (timestamp_eq_ok enough).symm.trans found
      injection same with nothing
      rw [CivilTime.carried?_eq_none_iff] at nothing
      exact absurd nothing (by decide)
  | some civil =>
      obtain ⟨-, -, unique⟩ := carried civil rfl
      have valid : CivilTime.IsValid ⟨2020, 2, 29, 1, 1, 1⟩ := by constructor <;> decide
      rw [found, unique _ valid (by decide)]

/-- A recorded time is found to be none just where its fields are all zero, where they lead out of
the calendar, and where their month alone does, even if their days lead back into it.
-/
theorem timestamp_none_iff (enough : timestampSize ≤ cursor.remaining)
    : let fields := CivilTime.recorded (cursor.rest.slice 2 7)
      ∃ time, timestamp cursor = .ok time (cursor.advance timestampSize)
        ∧ (time = none
          ↔ fields = .zero ∨ ¬InCalendar fields.monthInstant ∨ ¬InCalendar fields.instant) :=
  ⟨_, timestamp_eq_ok enough, CivilTime.carried?_eq_none_iff⟩

/-- The 40th of December 9999. -/
def lastDays : Cursor := .ofBytes [0, 0, 15, 39, 12, 40, 0, 0, 0, 0, 0, 0]

/-- Days lead out of the calendar at its end. -/
theorem timestamp_none_iff_lastDays
    : timestampSize ≤ lastDays.remaining
      ∧ timestamp lastDays = .ok none (lastDays.advance timestampSize) := by
  have enough : timestampSize ≤ lastDays.remaining := by decide
  obtain ⟨time, found, isNone⟩ := timestamp_none_iff enough
  have nothing : time = none := isNone.mpr (.inr (.inr (by decide)))
  exact ⟨enough, nothing ▸ found⟩

/-- Day 32 of month 0 of year 1. -/
def lateDecember : Cursor := .ofBytes [0, 0, 1, 0, 0, 32, 0, 0, 0, 0, 0, 0]

/-- A month outside the calendar is not brought back by its days: the fields stand for the first
instant of the calendar, and none is found.
-/
theorem timestamp_lateDecember
    : let fields := CivilTime.recorded (lateDecember.rest.slice 2 7)
      timestamp lateDecember = .ok none (lateDecember.advance timestampSize)
      ∧ fields ≠ .zero
      ∧ fields.instant = (⟨1, 1, 1, 0, 0, 0⟩ : CivilTime).instant
      ∧ InCalendar fields.instant := by
  have nothing : (CivilTime.recorded (lateDecember.rest.slice 2 7)).carried? = none :=
    CivilTime.carried?_of_outside (by decide)
  refine ⟨?_, by decide, by decide, by decide⟩
  rw [timestamp_eq_ok (by decide), nothing]

end Decoder

end DiscVolume
