import DiscVolume.Proofs.Volume.Sequences

/-! The search for the end of a sequence, without a bound of its own. It goes from sector to sector
for as long as they are read and decoded and none is the last, so nothing but the end of the image
is sure to stop it. On a served image it is stopped there at the latest, and what it comes to is
what the bounded search finds.
-/

namespace DiscVolume

open Sequencing

/-- A search through sectors as it runs on a source, with the number of the sectors that are read in
full on the way and the result that it comes to. A search that never ends has none.
-/
inductive Source.Scan (source : Source σ) (decoder : Decoder α) (isLast : α → Bool)
    : Nat → σ → Nat → EStateM.Result Failure σ (List α) → Prop where
  | unread {sector : Nat} {medium failure after}
      (failed : source.readExactly (sector * sectorSize) sectorSize medium = .error failure after)
      : Scan source decoder isLast sector medium 0 (.error failure after)
  | broken {sector : Nat} {medium data failure after}
      (read : source.readExactly (sector * sectorSize) sectorSize medium = .ok data after)
      (undecoded : decoder.value (Cursor.ofBytes data) = .error failure)
      : Scan source decoder isLast sector medium 1 (.error failure after)
  | last {sector : Nat} {medium data value after}
      (read : source.readExactly (sector * sectorSize) sectorSize medium = .ok data after)
      (decoded : decoder.value (Cursor.ofBytes data) = .ok value)
      (ends : isLast value = true)
      : Scan source decoder isLast sector medium 1 (.ok [value] after)
  | next {sector : Nat} {medium data value middle count others after}
      (read : source.readExactly (sector * sectorSize) sectorSize medium = .ok data middle)
      (decoded : decoder.value (Cursor.ofBytes data) = .ok value)
      (goesOn : isLast value = false)
      (rest : Scan source decoder isLast (sector + 1) middle count (.ok others after))
      : Scan source decoder isLast sector medium (count + 1) (.ok (value :: others) after)
  | stopped {sector : Nat} {medium data value middle count failure after}
      (read : source.readExactly (sector * sectorSize) sectorSize medium = .ok data middle)
      (decoded : decoder.value (Cursor.ofBytes data) = .ok value)
      (goesOn : isLast value = false)
      (rest : Scan source decoder isLast (sector + 1) middle count (.error failure after))
      : Scan source decoder isLast sector medium (count + 1) (.error failure after)

namespace Source

variable {source : Source σ} {image : Bytes} {ready : σ → Prop} {decoder : Decoder α}
variable {isLast : α → Bool} {sector : Nat} {medium after : σ} {data : Bytes}

/-- A search runs in one way only, by induction on one run and cases on the other. -/
theorem Scan.unique {count other : Nat} {result again : EStateM.Result Failure σ (List α)}
    (scan : source.Scan decoder isLast sector medium count result)
    (twin : source.Scan decoder isLast sector medium other again)
    : count = other ∧ result = again := by
  induction scan generalizing other again with
  | unread failed => cases twin <;> simp_all
  | broken read undecoded => cases twin <;> simp_all
  | last read decoded ends => cases twin <;> simp_all
  | next read decoded goesOn _ ih | stopped read decoded goesOn _ ih =>
      cases twin with
      | unread | broken | last => simp_all
      | next readAgain _ _ rest | stopped readAgain _ _ rest =>
          obtain ⟨rfl, rfl⟩ := EStateM.Result.ok.inj (read.symm.trans readAgain)
          have same := ih rest
          simp_all

theorem Scan.iff {count other : Nat} {result again : EStateM.Result Failure σ (List α)}
    (scan : source.Scan decoder isLast sector medium count result)
    : source.Scan decoder isLast sector medium other again ↔ other = count ∧ again = result := by
  constructor
  · intro twin
    exact twin.unique scan
  · rintro ⟨rfl, rfl⟩
    exact scan

theorem decodeSector_of_read (decoder : Decoder α)
    (read : source.readExactly (sector * sectorSize) sectorSize medium = .ok data after)
    : source.decodeSector sector decoder medium
      = Access.settle (decoder.value (Cursor.ofBytes data)) after :=
  bind_of_ok read

/-- On a served image the search runs to an end, and it reads no more sectors than the image has
behind where it starts. By induction on how many these are: a sector that is read is one of them, so
the capacity is not reached either, and there are fewer behind it.
-/
theorem ServesToEnd.exists_scan (serves : source.ServesToEnd image ready)
    (reaches : Reaches image sector) (isReady : ready medium) (decoder : Decoder α)
    (isLast : α → Bool)
    : ∃ count ≤ image.length / sectorSize - sector,
        source.Scan decoder isLast sector medium count
          (source.sequenceFrom decoder isLast sector medium) := by
  induction left : image.length / sectorSize - sector using Nat.strongRecOn
    generalizing sector medium with
  | ind left ih =>
      obtain ⟨after, readyAfter, answer⟩ := serves.readSector_eq reaches isReady
      split at answer
      · next whole =>
          have here := decodeSector_of_read decoder answer
          have counted : sector + 1 ≤ image.length / sectorSize := by
            rw [Nat.le_div_iff_mul_le (by decide), Nat.add_mul, Nat.one_mul]
            exact whole
          cases decoded : decoder.value
              (Cursor.ofBytes (image.slice (sector * sectorSize) sectorSize)) with
          | error failure =>
              rw [decoded] at here
              refine ⟨1, by omega, ?_⟩
              rw [sequenceFrom, bind_of_error here]
              exact .broken answer decoded
          | ok value =>
              rw [decoded] at here
              rw [sequenceFrom, bind_of_ok here]
              by_cases ends : isLast value = true
              · refine ⟨1, by omega, ?_⟩
                rw [if_pos ends]
                exact .last answer decoded ends
              · have goesOn : isLast value = false := by simpa using ends
                have covered : sector * sectorSize < source.capacity := by
                  have := serves.length_le_capacity
                  unfold sectorSize at *
                  omega
                have reachesNext : Reaches image (sector + 1) := .inl (by
                  rw [Nat.add_mul, Nat.one_mul]
                  exact whole)
                obtain ⟨count, within, scan⟩ := ih _ (by omega) reachesNext readyAfter rfl
                refine ⟨count + 1, by omega, ?_⟩
                rw [if_neg ends, if_pos covered]
                cases found : source.sequenceFrom decoder isLast (sector + 1) after with
                | ok others later =>
                    rw [found] at scan
                    rw [bind_of_ok found]
                    exact .next answer decoded goesOn scan
                | error failure later =>
                    rw [found] at scan
                    rw [bind_of_error found]
                    exact .stopped answer decoded goesOn scan
      · refine ⟨0, Nat.zero_le _, ?_⟩
        rw [sequenceFrom, decodeSector, bind_of_error (bind_of_error answer)]
        exact .unread answer

end Source

end DiscVolume
