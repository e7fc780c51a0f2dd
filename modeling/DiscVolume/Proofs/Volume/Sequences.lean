import DiscVolume.Proofs.Medium.Answers
import DiscVolume.Volume

/-! What the sectors of an image hold, one by one and in sequences that end with a sector of a
certain kind. A served source finds just that.
-/

namespace DiscVolume

open Sequencing

/-- What a sector of an image decodes to. All of the sector must be there. -/
def Bytes.sectorValue (image : Bytes) (decoder : Decoder α) (sector : Nat) : Except Failure α :=
  if sector * sectorSize + sectorSize ≤ image.length then
    decoder.value (Cursor.ofBytes (image.slice (sector * sectorSize) sectorSize))
  else
    .error (.truncated (.medium sectorSize (sector * sectorSize : Nat)
      (image.slice (sector * sectorSize) sectorSize).length))

/-- Values are decoded from one sector after another. The last one, and no other, is of the kind
that ends the sequence.
-/
structure Bytes.IsSequence (image : Bytes) (decoder : Decoder α) (isLast : α → Bool) (start : Nat)
    (values : List α)
    : Prop where
  nonempty : values ≠ []
  decoded : ∀ place (h : place < values.length),
    image.sectorValue decoder (start + place) = .ok values[place]
  isLast_iff : ∀ place (h : place < values.length),
    isLast values[place] = true ↔ place + 1 = values.length

/-- How a search through sectors comes out: with the values up to the last, or with what is wrong
with the first sector that does not decode.
-/
inductive Bytes.Search (image : Bytes) (decoder : Decoder α) (isLast : α → Bool)
    : Nat → Except Failure (List α) → Prop where
  | failed {sector failure} (broken : image.sectorValue decoder sector = .error failure)
      : Search image decoder isLast sector (.error failure)
  | last {sector value} (decoded : image.sectorValue decoder sector = .ok value)
      (ends : isLast value = true)
      : Search image decoder isLast sector (.ok [value])
  | next {sector value others} (decoded : image.sectorValue decoder sector = .ok value)
      (goesOn : isLast value = false)
      (found : Search image decoder isLast (sector + 1) (.ok others))
      : Search image decoder isLast sector (.ok (value :: others))
  | stopped {sector value failure} (decoded : image.sectorValue decoder sector = .ok value)
      (goesOn : isLast value = false)
      (broken : Search image decoder isLast (sector + 1) (.error failure))
      : Search image decoder isLast sector (.error failure)

namespace Bytes

variable {image : Bytes} {decoder : Decoder α} {isLast : α → Bool} {sector : Nat} {value : α}

/-- Only sectors that are there decode. -/
theorem stop_le_of_sectorValue (decoded : image.sectorValue decoder sector = .ok value)
    : sector * sectorSize + sectorSize ≤ image.length := by
  unfold sectorValue at decoded
  split at decoded
  · assumption
  · cases decoded

namespace IsSequence

variable {values others : List α}

theorem single (decoded : image.sectorValue decoder sector = .ok value)
    (ends : isLast value = true)
    : image.IsSequence decoder isLast sector [value] := by
  refine ⟨by simp, fun place h => ?_, fun place h => ?_⟩
  · obtain rfl : place = 0 := by simpa using h
    exact decoded
  · obtain rfl : place = 0 := by simpa using h
    simp [ends]

/-- A sequence starts with one value or goes on behind the first. -/
theorem cons_iff
    : image.IsSequence decoder isLast sector (value :: others)
      ↔ image.sectorValue decoder sector = .ok value
        ∧ (isLast value = true ∧ others = []
          ∨ isLast value = false ∧ image.IsSequence decoder isLast (sector + 1) others) := by
  constructor
  · rintro ⟨-, decoded, isLast_iff⟩
    refine ⟨decoded 0 (by simp), ?_⟩
    have first := isLast_iff 0 (by simp)
    cases others with
    | nil => exact .inl ⟨by simpa using first, rfl⟩
    | cons second rest =>
        refine .inr ⟨by simpa using first, by simp, fun place h => ?_, fun place h => ?_⟩
        · have here := decoded (place + 1) (by simpa using h)
          rwa [← Nat.add_assoc, Nat.add_right_comm] at here
        · have here := isLast_iff (place + 1) (by simpa using h)
          simpa using here
  · rintro ⟨decoded, ⟨ends, rfl⟩ | ⟨goesOn, nonempty, later, isLast_iff⟩⟩
    · exact single decoded ends
    · refine ⟨by simp, fun place h => ?_, fun place h => ?_⟩
      · cases place with
        | zero => exact decoded
        | succ place =>
            have here := later place (by simpa using h)
            rwa [Nat.add_assoc, Nat.add_comm 1] at here
      · cases place with
        | zero =>
            have more := List.length_pos_iff.mpr nonempty
            simp [goesOn]
            omega
        | succ place =>
            have here := isLast_iff place (by simpa using h)
            simpa using here

end IsSequence

namespace Search

/-- A search succeeds just with the sequence that there is, by induction on the values found. -/
theorem ok_iff {values : List α}
    : image.Search decoder isLast sector (.ok values)
      ↔ image.IsSequence decoder isLast sector values := by
  constructor
  · intro search
    generalize found : (.ok values : Except Failure (List α)) = outcome at search
    induction search generalizing values with
    | failed => cases found
    | last decoded ends =>
        cases found
        exact .single decoded ends
    | next decoded goesOn _ ih =>
        cases found
        exact IsSequence.cons_iff.mpr ⟨decoded, .inr ⟨goesOn, ih rfl⟩⟩
    | stopped => cases found
  · intro sequence
    induction values generalizing sector with
    | nil => exact absurd rfl sequence.nonempty
    | cons value others ih =>
        obtain ⟨decoded, ⟨ends, rfl⟩ | ⟨goesOn, later⟩⟩ := IsSequence.cons_iff.mp sequence
        · exact .last decoded ends
        · exact .next decoded goesOn (ih later)

/-- A search comes out in one way only, by induction on one search and cases on the other. -/
theorem unique {outcome other : Except Failure (List α)}
    (search : image.Search decoder isLast sector outcome)
    (again : image.Search decoder isLast sector other)
    : outcome = other := by
  induction search generalizing other with
  | failed broken => cases again <;> simp_all
  | last decoded ends => cases again <;> simp_all
  | next decoded goesOn _ ih =>
      cases again with
      | failed | last => simp_all
      | next same _ found =>
          have others := ih found
          simp_all
      | stopped _ _ broken => cases ih broken
  | stopped decoded goesOn _ ih =>
      cases again with
      | failed | last => simp_all
      | next _ _ found => cases ih found
      | stopped _ _ broken => exact ih broken

/-- A search fails only because of some sector. -/
theorem broken {failure : Failure} (search : image.Search decoder isLast sector (.error failure))
    : ∃ sector, image.sectorValue decoder sector = .error failure := by
  generalize found : (.error failure : Except Failure (List α)) = outcome at search
  induction search with
  | failed broken =>
      cases found
      exact ⟨_, broken⟩
  | last => cases found
  | next => cases found
  | stopped _ _ _ ih => exact ih found

end Search

end Bytes

namespace Source

variable {source : Source σ} {image : Bytes} {ready : σ → Prop} {sector : Nat}

/-- A sector can be asked for if the image does not end before it, or its offset is one that files
can deal with.
-/
def Reaches (image : Bytes) (sector : Nat) : Prop :=
  sector * sectorSize ≤ image.length ∨ ((sector * sectorSize : Nat) : Int) < indexLimit

/-- A sector is read in full if the image holds all of it. -/
theorem ServesToEnd.readSector_eq {medium : σ} (serves : source.ServesToEnd image ready)
    (reaches : Reaches image sector) (isReady : ready medium)
    : ∃ after, ready after
        ∧ source.readExactly (sector * sectorSize) sectorSize medium
          = if sector * sectorSize + sectorSize ≤ image.length then
              .ok (image.slice (sector * sectorSize) sectorSize) after
            else
              .error (.truncated (.medium sectorSize (sector * sectorSize : Nat)
                (image.slice (sector * sectorSize) sectorSize).length)) after := by
  have small : (sectorSize : Int) < indexLimit := by decide
  have place : (sector : Int) * sectorSize = (sector * sectorSize : Nat) := by omega
  obtain ⟨after, readyAfter, answer⟩ : ∃ after, ready after
      ∧ source.readExactly (sector * sectorSize : Nat) sectorSize medium
        = if (image.slice (sector * sectorSize) sectorSize).length = sectorSize then
            .ok (image.slice (sector * sectorSize) sectorSize) after
          else
            .error (.truncated (.medium sectorSize (sector * sectorSize : Nat)
              (image.slice (sector * sectorSize) sectorSize).length)) after := by
    rcases reaches with inside | bounded
    · exact serves.readExactly_at_end _ _ medium isReady inside small
    · exact serves.readExactly_eq _ _ medium isReady (.inr ⟨bounded, small⟩)
  refine ⟨after, readyAfter, ?_⟩
  rw [place]
  by_cases whole : sector * sectorSize + sectorSize ≤ image.length
  · rw [if_pos (Bytes.length_slice whole)] at answer
    rw [answer, if_pos whole]
  · have short : (image.slice (sector * sectorSize) sectorSize).length ≠ sectorSize := by
      simp only [Bytes.slice, List.length_take, List.length_drop]
      unfold sectorSize at *
      omega
    rw [if_neg short] at answer
    rw [answer, if_neg whole]

/-- Reading a sector finds what the image holds there. -/
theorem decodeSector_answers (serves : source.ServesToEnd image ready)
    (reaches : Reaches image sector) (decoder : Decoder α)
    : (source.decodeSector sector decoder).Answers ready (image.sectorValue decoder sector) := by
  intro medium isReady
  obtain ⟨after, readyAfter, answer⟩ := serves.readSector_eq reaches isReady
  refine ⟨after, readyAfter, ?_⟩
  rw [decodeSector, Bytes.sectorValue]
  split at answer
  · next whole => rw [bind_of_ok answer, if_pos whole]
  · next short =>
      rw [bind_of_error answer, if_neg short]
      rfl

/-- A descriptor is found where it is the one of its kind. -/
theorem descriptorAt_answers (serves : source.ServesToEnd image ready)
    (reaches : Reaches image sector) (kind : DescriptorKind) (select : Descriptor → Option α)
    : (source.descriptorAt sector kind select).Answers ready
        (image.sectorValue Descriptor.decode sector >>= fun descriptor =>
          match select descriptor with
          | some value => .ok value
          | none =>
              .error (.malformed
                (.tagMismatchAtSector kind.tagNumber descriptor.kind.tagNumber sector))) := by
  refine (decodeSector_answers serves reaches Descriptor.decode).bind (fun descriptor _ => ?_)
  cases select descriptor with
  | some value => exact .pure value ready
  | none => exact .throw _ ready

/-- Reading sectors one after another finds what the search through the image does, by induction on
the bytes of the image behind the sector.
-/
theorem sequenceFrom_answers (serves : source.ServesToEnd image ready)
    (reaches : Reaches image sector) (decoder : Decoder α) (isLast : α → Bool)
    : ∃ outcome, image.Search decoder isLast sector outcome
        ∧ (source.sequenceFrom decoder isLast sector).Answers ready outcome := by
  induction size : image.length - sector * sectorSize using Nat.strongRecOn
    generalizing sector with
  | ind left ih =>
      have here := decodeSector_answers serves reaches decoder
      cases decoded : image.sectorValue decoder sector with
      | error failure =>
          rw [decoded] at here
          refine ⟨.error failure, .failed decoded, ?_⟩
          rw [sequenceFrom]
          exact here.bind (f := fun _ => .error failure) (fun _ found => by cases found)
      | ok value =>
          rw [decoded] at here
          have stop := Bytes.stop_le_of_sectorValue decoded
          have covered : sector * sectorSize < source.capacity := by
            have := serves.length_le_capacity
            unfold sectorSize at *
            omega
          by_cases ends : isLast value = true
          · refine ⟨.ok [value], .last decoded ends, ?_⟩
            rw [sequenceFrom]
            refine here.bind (f := fun _ => .ok [value]) (fun found same => ?_)
            cases same
            rw [if_pos ends]
            exact .pure [value] ready
          · have reachesNext : Reaches image (sector + 1) := .inl (by
              rw [Nat.add_mul, Nat.one_mul]
              exact stop)
            have fewer : image.length - (sector + 1) * sectorSize < left := by
              rw [← size, Nat.add_mul, Nat.one_mul]
              unfold sectorSize at stop ⊢
              omega
            obtain ⟨outcome, search, answers⟩ := ih _ fewer reachesNext rfl
            have goesOn : isLast value = false := by simpa using ends
            refine ⟨outcome >>= fun others => .ok (value :: others), ?_, ?_⟩
            · cases outcome with
              | ok others => exact .next decoded goesOn search
              | error failure => exact .stopped decoded goesOn search
            · rw [sequenceFrom]
              refine here.bind (f := fun _ => outcome >>= fun others => .ok (value :: others))
                (fun found same => ?_)
              cases same
              rw [if_neg ends, if_pos covered]
              exact answers.bind (fun others _ => .pure _ ready)

/-- A sequence that the image has is found, and no other. -/
theorem isSequence_of_sequenceFrom {decoder : Decoder α} {isLast : α → Bool} {values : List α}
    {medium after : σ} (serves : source.ServesToEnd image ready) (reaches : Reaches image sector)
    (isReady : ready medium)
    (found : source.sequenceFrom decoder isLast sector medium = .ok values after)
    : image.IsSequence decoder isLast sector values ∧ ready after := by
  obtain ⟨outcome, search, answers⟩ := sequenceFrom_answers serves reaches decoder isLast
  obtain ⟨rfl, readyAfter⟩ := answers.of_eq_ok isReady found
  exact ⟨Bytes.Search.ok_iff.mp search, readyAfter⟩

theorem sequenceFrom_of_isSequence {decoder : Decoder α} {isLast : α → Bool} {values : List α}
    {medium : σ} (serves : source.ServesToEnd image ready) (isReady : ready medium)
    (sequence : image.IsSequence decoder isLast sector values)
    : ∃ after, ready after
        ∧ source.sequenceFrom decoder isLast sector medium = .ok values after := by
  have decoded := sequence.decoded 0 (List.length_pos_iff.mpr sequence.nonempty)
  rw [Nat.add_zero] at decoded
  have reaches : Reaches image sector :=
    .inl (Nat.le_of_add_right_le (Bytes.stop_le_of_sectorValue decoded))
  obtain ⟨outcome, search, answers⟩ := sequenceFrom_answers serves reaches decoder isLast
  obtain rfl := search.unique (Bytes.Search.ok_iff.mpr sequence)
  exact answers medium isReady

/-- A descriptor that is found is the one at the sector. -/
theorem sectorValue_of_descriptorAt {kind : DescriptorKind} {select : Descriptor → Option α}
    {value : α} {medium after : σ} (serves : source.ServesToEnd image ready)
    (reaches : Reaches image sector) (isReady : ready medium)
    (found : source.descriptorAt sector kind select medium = .ok value after)
    : ∃ descriptor, image.sectorValue Descriptor.decode sector = .ok descriptor
        ∧ select descriptor = some value ∧ ready after := by
  obtain ⟨outcome, readyAfter⟩ :=
    (descriptorAt_answers serves reaches kind select).of_eq_ok isReady found
  cases decoded : image.sectorValue Descriptor.decode sector with
  | error failure =>
      rw [decoded] at outcome
      cases outcome
  | ok descriptor =>
      rw [decoded] at outcome
      change (match select descriptor with | some value => _ | none => _) = _ at outcome
      split at outcome
      · next selected =>
          cases outcome
          exact ⟨descriptor, rfl, selected, readyAfter⟩
      · cases outcome

theorem descriptorAt_eq_ok (kind : DescriptorKind) {select : Descriptor → Option α}
    {descriptor : Descriptor} {value : α} {medium : σ} (serves : source.ServesToEnd image ready)
    (isReady : ready medium)
    (decoded : image.sectorValue Descriptor.decode sector = .ok descriptor)
    (selected : select descriptor = some value)
    : ∃ after, ready after ∧ source.descriptorAt sector kind select medium = .ok value after := by
  have reaches : Reaches image sector :=
    .inl (Nat.le_of_add_right_le (Bytes.stop_le_of_sectorValue decoded))
  obtain ⟨after, readyAfter, answer⟩ :=
    descriptorAt_answers serves reaches kind select medium isReady
  refine ⟨after, readyAfter, answer.trans ?_⟩
  rw [decoded]
  change Access.settle (match select descriptor with | some value => _ | none => _) after = _
  rw [selected]
  rfl

end Source

end DiscVolume
