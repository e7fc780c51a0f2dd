import DiscVolume.Copy
import DiscVolume.Proofs.Medium.Alike
import DiscVolume.Proofs.Medium.Serving

/-! Copying in blocks. A file that has as many bytes left as are to be copied is copied just so far, in
whatever blocks. One that has fewer is read to its end: all blocks that are in it are copied, and the
copy fails at the one that is not.
-/

namespace DiscVolume

open Sequencing

variable {read : Int → EStateM Failure τ Bytes} {write : Bytes → τ → τ}
variable {holds : τ → Bytes → Prop} {most : Nat} {input next : τ} {data : Bytes}

/-- (Delivers read write holds most) says that a file which holds some bytes delivers as many of them
as it is asked for, as long as that is no more than most, or all of them if they are fewer, and then
holds the others. To write what was copied changes nothing of that.
-/
structure Delivers (read : Int → EStateM Failure τ Bytes) (write : Bytes → τ → τ)
    (holds : τ → Bytes → Prop) (most : Nat)
    : Prop where
  exists_next {input : τ} {rest : Bytes} (count : Nat) (isHeld : holds input rest)
    (bounded : count ≤ most)
    : ∃ next, read count input = .ok (rest.take count) next ∧ holds next (rest.drop count)
  holds_write {input : τ} {rest : Bytes} (data : Bytes) (isHeld : holds input rest)
    : holds (write data input) rest

-----------------------------------------------------------------------------------------
-- One block
-----------------------------------------------------------------------------------------

/-- A block that comes in full is copied in front of what is left behind it. -/
theorem copyBlocks_of_full {blockSize : Int} {left : Nat} (positive : 0 < blockSize)
    (more : 0 < left) (full : (data.length : Int) = min (left : Int) blockSize)
    (came : read (min (left : Int) blockSize) input = .ok data next)
    : copyBlocks read write blockSize left input
      = { copyBlocks read write blockSize (left - data.length) (write data next) with
          written := data ++ (copyBlocks read write blockSize (left - data.length)
            (write data next)).written } := by
  have notEmpty : min (left : Int) blockSize ≠ 0 := by omega
  rw [copyBlocks, if_neg (Nat.ne_of_gt more)]
  simp only [notEmpty, if_false, came, full, if_true]

/-- A block of another size ends the copy, and nothing of it is written. -/
theorem copyBlocks_of_short {blockSize : Int} {left : Nat} (positive : 0 < blockSize)
    (more : 0 < left) (short : (data.length : Int) ≠ min (left : Int) blockSize)
    (came : read (min (left : Int) blockSize) input = .ok data next)
    : copyBlocks read write blockSize left input
      = ⟨[], some (.truncated (.copy (min (left : Int) blockSize) data.length)), next⟩ := by
  have notEmpty : min (left : Int) blockSize ≠ 0 := by omega
  rw [copyBlocks, if_neg (Nat.ne_of_gt more)]
  simp only [notEmpty, if_false, came, short]

/-- A read that fails ends the copy. -/
theorem copyBlocks_of_error {blockSize : Int} {left : Nat} {failure : Failure}
    (positive : 0 < blockSize) (more : 0 < left)
    (failed : read (min (left : Int) blockSize) input = .error failure next)
    : copyBlocks read write blockSize left input = ⟨[], some failure, next⟩ := by
  have notEmpty : min (left : Int) blockSize ≠ 0 := by omega
  rw [copyBlocks, if_neg (Nat.ne_of_gt more)]
  simp only [notEmpty, if_false, failed]

-----------------------------------------------------------------------------------------
-- All blocks
-----------------------------------------------------------------------------------------

namespace Delivers

variable {rest : Bytes} {left : Nat}

/-- As much as there is can be copied, in whatever blocks. The induction is on what is left. -/
theorem copies (delivers : Delivers read write holds most) {blockSize : Int}
    (positive : 0 < blockSize) (bounded : min (left : Int) blockSize ≤ most)
    (isHeld : holds input rest) (enough : left ≤ rest.length)
    : ∃ after, holds after (rest.drop left)
        ∧ copyBlocks read write blockSize left input = ⟨rest.take left, none, after⟩ := by
  induction left using Nat.strongRecOn generalizing input rest with
  | ind left ih =>
      rcases Nat.eq_zero_or_pos left with rfl | more
      · refine ⟨input, isHeld, ?_⟩
        rw [copyBlocks, if_pos rfl, List.take_zero]
      · obtain ⟨count, isCount⟩ : ∃ count : Nat, (count : Int) = min (left : Int) blockSize :=
          ⟨(min (left : Int) blockSize).toNat, by omega⟩
        have full : (rest.take count).length = count := List.length_take_of_le (by omega)
        obtain ⟨next, came, isHeldNext⟩ := delivers.exists_next count isHeld (by omega)
        have isHeldOn := delivers.holds_write (rest.take count) isHeldNext
        have behind : left - count ≤ (rest.drop count).length := by
          rw [List.length_drop]
          omega
        obtain ⟨after, isHeldAfter, others⟩ := ih (left - count) (by omega) (by omega) isHeldOn behind
        have parts : left = count + (left - count) := by omega
        refine ⟨after, ?_, ?_⟩
        · rw [parts, ← List.drop_drop]
          exact isHeldAfter
        · rw [isCount] at came
          rw [copyBlocks_of_full positive more (by rw [full, isCount]) came, full, others]
          dsimp only
          rw [← List.take_add, ← parts]

/-- Where more is to be copied than there is, all blocks that are in it are copied, and the rest is
read for nothing. The induction is on what is left.
-/
theorem copies_blocks {blockSize : Nat} (delivers : Delivers read write holds most)
    (positive : 0 < blockSize) (bounded : min (left : Int) blockSize ≤ most)
    (isHeld : holds input rest) (short : rest.length < left)
    : ∃ after, holds after []
        ∧ copyBlocks read write blockSize left input
          = ⟨rest.take (blockSize * (rest.length / blockSize)),
              some (.truncated (.copy
                (min ((left - blockSize * (rest.length / blockSize) : Nat) : Int) blockSize)
                (rest.length % blockSize))),
              after⟩ := by
  induction left using Nat.strongRecOn generalizing input rest with
  | ind left ih =>
      have someSize : (0 : Int) < blockSize := by omega
      have more : 0 < left := by omega
      by_cases isLast : rest.length < min left blockSize
      · have isCount : ((min left blockSize : Nat) : Int) = min (left : Int) blockSize := by omega
        obtain ⟨after, came, isHeldAfter⟩ :=
          delivers.exists_next (min left blockSize) isHeld (by omega)
        rw [List.drop_eq_nil_of_le (by omega)] at isHeldAfter
        rw [List.take_of_length_le (by omega), isCount] at came
        refine ⟨after, isHeldAfter, ?_⟩
        rw [copyBlocks_of_short someSize more (by omega) came,
          Nat.div_eq_of_lt (by omega : rest.length < blockSize),
          Nat.mod_eq_of_lt (by omega : rest.length < blockSize), Nat.mul_zero, List.take_zero,
          Nat.sub_zero]
      · have isBlock : ((blockSize : Nat) : Int) = min (left : Int) blockSize := by omega
        have full : (rest.take blockSize).length = blockSize := List.length_take_of_le (by omega)
        obtain ⟨next, came, isHeldNext⟩ := delivers.exists_next blockSize isHeld (by omega)
        have isHeldOn := delivers.holds_write (rest.take blockSize) isHeldNext
        have behind : (rest.drop blockSize).length = rest.length - blockSize := List.length_drop ..
        obtain ⟨after, isHeldAfter, others⟩ :=
          ih (left - blockSize) (by omega) (by omega) isHeldOn (by omega)
        have quotient : rest.length / blockSize = (rest.length - blockSize) / blockSize + 1 :=
          Nat.div_eq_sub_div positive (by omega)
        have remainder : rest.length % blockSize = (rest.length - blockSize) % blockSize :=
          Nat.mod_eq_sub_mod (by omega)
        have parts : blockSize * (rest.length / blockSize)
            = blockSize + blockSize * ((rest.length - blockSize) / blockSize) := by
          rw [quotient, Nat.mul_succ, Nat.add_comm]
        refine ⟨after, isHeldAfter, ?_⟩
        rw [isBlock] at came
        rw [copyBlocks_of_full someSize more (full.symm ▸ isBlock) came, full, others, behind,
          remainder, parts, List.take_add, Nat.sub_sub]

end Delivers

-----------------------------------------------------------------------------------------
-- The number of reads
-----------------------------------------------------------------------------------------

/-- Reads that are counted beside the file. -/
def counted (read : Int → EStateM Failure τ Bytes) (count : Int)
    : EStateM Failure (Nat × τ) Bytes := do
  modify fun (reads, input) => (reads + 1, input)
  Access.beside (read count)

/-- As many blocks as it takes to hold some bytes, and one more for a block more of them. -/
theorem blocks_sub {blockSize left count : Nat} (positive : 0 < blockSize) (more : 0 < left)
    (isCount : count = min left blockSize)
    : (left - count + blockSize - 1) / blockSize + 1 ≤ (left + blockSize - 1) / blockSize := by
  rcases Nat.lt_or_ge left blockSize with isLast | isWhole
  · rw [Nat.div_eq_of_lt (by omega), Nat.le_div_iff_mul_le positive]
    omega
  · have parts : left + blockSize - 1 = left - count + blockSize - 1 + blockSize := by omega
    exact Nat.le_of_eq (by rw [parts, Nat.add_div_right _ positive])

/-- Whatever a file answers, it is read no more often than there are blocks in what is to be copied,
and to count the reads changes nothing else. The induction is on what is left.
-/
theorem copyBlocks_counted (read : Int → EStateM Failure τ Bytes) (write : Bytes → τ → τ)
    {blockSize : Nat} (positive : 0 < blockSize) (left reads : Nat) (input : τ)
    : ∃ more ≤ (left + blockSize - 1) / blockSize,
        copyBlocks (counted read) (fun data (reads, input) => (reads, write data input)) blockSize
            left (reads, input)
          = ⟨(copyBlocks read write blockSize left input).written,
              (copyBlocks read write blockSize left input).failure,
              (reads + more, (copyBlocks read write blockSize left input).input)⟩ := by
  induction left using Nat.strongRecOn generalizing reads input with
  | ind left ih =>
      have someSize : (0 : Int) < blockSize := by omega
      rcases Nat.eq_zero_or_pos left with rfl | more
      · refine ⟨0, Nat.zero_le _, ?_⟩
        rw [copyBlocks, if_pos rfl, copyBlocks, if_pos rfl, Nat.add_zero]
      · have oneBlock : 1 ≤ (left + blockSize - 1) / blockSize :=
          (Nat.le_div_iff_mul_le positive).mpr (by omega)
        cases came : read (min (left : Int) blockSize) input with
        | error failure next =>
            have same : counted read (min (left : Int) blockSize) (reads, input)
                = .error failure (reads + 1, next) := Access.beside_of_error came
            refine ⟨1, oneBlock, ?_⟩
            rw [copyBlocks_of_error someSize more came, copyBlocks_of_error someSize more same]
        | ok data next =>
            have same : counted read (min (left : Int) blockSize) (reads, input)
                = .ok data (reads + 1, next) := Access.beside_of_ok came
            by_cases full : (data.length : Int) = min (left : Int) blockSize
            · obtain ⟨others, within, copied⟩ :=
                ih (left - data.length) (by omega) (reads + 1) (write data next)
              refine ⟨others + 1, ?_, ?_⟩
              · exact Nat.le_trans (Nat.succ_le_succ within) (blocks_sub positive more (by omega))
              · rw [copyBlocks_of_full someSize more full came,
                  copyBlocks_of_full someSize more full same, copied, Nat.add_assoc,
                  Nat.add_comm 1]
            · refine ⟨1, oneBlock, ?_⟩
              rw [copyBlocks_of_short someSize more full came,
                copyBlocks_of_short someSize more full same]

-----------------------------------------------------------------------------------------
-- Copies of files
-----------------------------------------------------------------------------------------

/-- An open file holds the bytes behind its position. -/
structure ImageFile.HoldsRest (file : ImageFile) (rest : Bytes) : Prop where
  isOpen : file.isOpen = true
  drop_eq : file.contents.data.toList.drop file.position = rest

/-- An open file delivers what it is asked for, as far as files can deal with the number. -/
theorem ImageFile.delivers (bounded : (most : Int) < indexLimit)
    : Delivers ImageFile.read (fun _ file => file) ImageFile.HoldsRest most where
  holds_write _ isHeld := isHeld
  exists_next {file rest} count isHeld isAsked := by
    obtain ⟨isOpen, rfl⟩ := isHeld
    have allowed : isIndex count = true := ImageFile.isIndex_of_lt (by omega)
    have notNegative : ¬(count : Int) < 0 := by omega
    let data := sliceOf file.contents file.position count
    refine ⟨{ file with position := file.position + data.length }, ?_, isOpen, ?_⟩
    · simp [ImageFile.read, allowed, isOpen, notNegative, data, sliceOf_eq]
    · simp only [data, sliceOf_eq, ← List.drop_drop, List.length_take]
      exact List.drop_eq_drop_min.symm

/-- If a file holds as much as is to be copied, just that is copied, whatever the size of blocks, and
the file goes on behind it. If it holds less, the copy fails for want of data, all blocks that are
in it are written, and nothing is left in it. In either case, and whatever a file answers, it is
read no more often than there are blocks in what is to be copied.
-/
theorem copyBlocks_exact {blockSize : Nat} (positive : 0 < blockSize) (length : Int)
    (delivers : Delivers read write holds (min length.toNat blockSize)) (isHeld : holds input data)
    : (length ≤ data.length → ∃ after, holds after (data.drop length.toNat)
        ∧ copyBlocks read write blockSize length.toNat input
          = ⟨data.take length.toNat, none, after⟩)
      ∧ (data.length < length → ∃ truncation after, holds after []
        ∧ copyBlocks read write blockSize length.toNat input
          = ⟨data.take (blockSize * (data.length / blockSize)), some (.truncated truncation),
              after⟩)
      ∧ ∃ reads ≤ (length.toNat + blockSize - 1) / blockSize,
        copyBlocks (counted read) (fun data (reads, input) => (reads, write data input)) blockSize
            length.toNat (0, input)
          = ⟨(copyBlocks read write blockSize length.toNat input).written,
              (copyBlocks read write blockSize length.toNat input).failure,
              (reads, (copyBlocks read write blockSize length.toNat input).input)⟩ := by
  have someSize : (0 : Int) < blockSize := by omega
  refine ⟨?_, ?_, ?_⟩
  · intro enough
    exact delivers.copies someSize (by omega) isHeld (by omega)
  · intro short
    obtain ⟨after, isHeldAfter, copied⟩ :=
      delivers.copies_blocks positive (by omega) isHeld (by omega : data.length < length.toNat)
    exact ⟨_, after, isHeldAfter, copied⟩
  · obtain ⟨reads, within, copied⟩ := copyBlocks_counted read write positive length.toNat 0 input
    refine ⟨reads, within, ?_⟩
    rw [copied, Nat.zero_add]

/-- A file of six letters, of which the first has been read. -/
def sixLetters : ImageFile := { contents := ⟨#[97, 98, 99, 100, 101, 102]⟩, position := 1 }

/-- Two blocks of the five letters that are left are copied where seven are asked for. -/
theorem copyBlocks_exact_sixLetters
    : Delivers ImageFile.read (fun _ file => file) ImageFile.HoldsRest 2
      ∧ sixLetters.HoldsRest [98, 99, 100, 101, 102]
      ∧ ∃ truncation after, after.HoldsRest []
        ∧ copyBlocks ImageFile.read (fun _ file => file) 2 7 sixLetters
          = ⟨[98, 99, 100, 101], some (.truncated truncation), after⟩ := by
  have delivers : Delivers ImageFile.read (fun _ file => file) ImageFile.HoldsRest 2 :=
    ImageFile.delivers (by decide)
  have isHeld : sixLetters.HoldsRest [98, 99, 100, 101, 102] := ⟨rfl, rfl⟩
  obtain ⟨-, short, -⟩ := copyBlocks_exact (by decide : 0 < 2) 7 delivers isHeld
  exact ⟨delivers, isHeld, short (by decide)⟩

end DiscVolume
