import DiscVolume.Proofs.Copying
import DiscVolume.Proofs.FileStream.Playback

/-! Copying from a stream that plays a tape copies all that is left on the tape, in whatever blocks
it is copied.
-/

namespace DiscVolume

namespace Tape

variable {tape : Tape}

/-- A number of bytes is taken from what is left. -/
theorem delivery_natCast (count : Nat) : tape.delivery (some count) = tape.rest.take count := by
  rw [delivery, if_neg (by omega), Int.toNat_natCast]

/-- Behind what was delivered the rest of the tape is left. -/
theorem rest_after (data : Bytes) : (tape.after data).rest = tape.rest.drop data.length := by
  simp only [after, rest, List.drop_drop]

end Tape

namespace FileStream

variable {write : Bytes → FileStream σ × σ → FileStream σ × σ} {ready : σ → Prop}

/-- A stream delivers what is left on the tape that it plays, as long as writing does not disturb the
stream.
-/
theorem Plays.delivers (most : Nat)
    (keeps : ∀ data state tape, Plays state tape ready → Plays (write data state) tape ready)
    : Delivers (fun count => FileStream.read (some count)) write
        (fun state rest => ∃ tape, Plays state tape ready ∧ tape.isOpen = true ∧ tape.rest = rest)
        most where
  exists_next count isHeld _ := by
    obtain ⟨tape, plays, isOpen, rfl⟩ := isHeld
    obtain ⟨next, playsNext, delivered⟩ := plays.read isOpen (some count)
    rw [tape.delivery_natCast] at playsNext delivered
    refine ⟨next, delivered, _, playsNext, isOpen, ?_⟩
    rw [Tape.rest_after, List.length_take]
    exact List.drop_eq_drop_min.symm
  holds_write data isHeld := by
    obtain ⟨tape, plays, isOpen, same⟩ := isHeld
    exact ⟨tape, keeps data _ tape plays, isOpen, same⟩

/-- What is left on a tape is copied from the stream that plays it. -/
theorem Plays.copy {state : FileStream σ × σ} {tape : Tape} {blockSize : Int}
    (plays : Plays state tape ready) (isOpen : tape.isOpen = true) (positive : 0 < blockSize)
    (keeps : ∀ data state tape, Plays state tape ready → Plays (write data state) tape ready)
    : ∃ after, ready after.2
        ∧ copyBlocks (fun count => FileStream.read (some count)) write blockSize tape.rest.length
            state
          = ⟨tape.rest, none, after⟩ := by
  obtain ⟨after, ⟨_, playsAfter, -, -⟩, copied⟩ := (Plays.delivers tape.rest.length keeps).copies
    positive (by omega) ⟨tape, plays, isOpen, rfl⟩ (Nat.le_refl _)
  rw [List.take_length] at copied
  exact ⟨after, playsAfter.isReady, copied⟩

end FileStream

end DiscVolume
