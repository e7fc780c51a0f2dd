import DiscVolume.Proofs.Checksum.Bursts

/-! The division one bit at a time, most significant bit first. Taking in a byte from the table is
taking in its eight bits, and up to sixteen bits are taken in like a register that has them on top.
-/

namespace DiscVolume

/-- The bits of a byte, most significant first. -/
def Bytes.bitsOf (byte : UInt8) : List Bool := (List.range 8).map byte.toBitVec.getMsbD

/-- The bits of a byte string, those of the first byte first. -/
def Bytes.bits (data : Bytes) : List Bool := data.flatMap bitsOf

namespace Crc16

/-- The register after one more bit of a message: the leading bit leaves the register, and where it
differs from the bit of the message the polynomial is subtracted.
-/
def feed (register : UInt16) (bit : Bool) : UInt16 :=
  if register.toBitVec.msb = bit then register <<< 1 else (register <<< 1) ^^^ polynomial

/-- A register with a bit in the leading place and no other. -/
def leading (bit : Bool) : UInt16 := if bit then 0x8000 else 0

/-- A register with some bits on top and none below them, for up to sixteen bits. -/
def topmost : List Bool → UInt16
  | [] => 0
  | bit :: others => leading bit ^^^ (topmost others >>> 1)

/-- The bit of the message is put on the leading bit, which then leaves the register. -/
theorem feed_eq (register : UInt16) (bit : Bool)
    : feed register bit = shift (register ^^^ leading bit) := by
  have subtracted : shift (leading true) = polynomial := by decide
  cases bit with
  | false =>
      rw [leading, if_neg Bool.false_ne_true, UInt16.xor_zero, feed, shift]
      simp only [leading_eq_zero_iff_msb]
  | true =>
      rw [shift_xor, subtracted, feed, shift]
      simp only [leading_eq_zero_iff_msb]
      cases register.toBitVec.msb with
      | false => rfl
      | true =>
          rw [if_pos rfl, if_neg (by decide), UInt16.xor_assoc, UInt16.xor_self,
            UInt16.xor_zero]

/-- A bit loses nothing of the register. -/
theorem feed_injective {a b : UInt16} {bit : Bool} (h : feed a bit = feed b bit) : a = b := by
  rw [feed_eq, feed_eq] at h
  exact (UInt16.xor_left_inj _).mp (shift_injective h)

/-- Registers that differ before some bits differ after them, by induction. -/
theorem foldl_feed_injective {bits : List Bool} {a b : UInt16}
    (h : bits.foldl feed a = bits.foldl feed b)
    : a = b := by
  induction bits generalizing a b with
  | nil => exact h
  | cons bit others ih => exact feed_injective (ih h)

theorem getLsbD_leading (bit : Bool) (place : Nat)
    : (leading bit).toBitVec.getLsbD place = (bit && decide (place = 15)) := by
  have top : (0x8000 : UInt16).toBitVec = BitVec.twoPow 16 15 := by decide
  cases bit with
  | false => simp [leading]
  | true =>
      rw [leading, if_pos rfl, top, BitVec.getLsbD_twoPow, Bool.true_and]
      simp [eq_comm]

/-- The places of a register from the top hold the bits, and the others nothing. -/
theorem getLsbD_topmost (bits : List Bool) {place : Nat} (inside : place < 16)
    : (topmost bits).toBitVec.getLsbD place = bits.getD (15 - place) false := by
  induction bits generalizing place with
  | nil => simp [topmost]
  | cons bit others ih =>
      have below : (topmost others >>> 1).toBitVec.getLsbD place
          = (topmost others).toBitVec.getLsbD (place + 1) := by
        simp [Nat.add_comm]
      rw [topmost, UInt16.toBitVec_xor, BitVec.getLsbD_xor, getLsbD_leading, below]
      by_cases last : place = 15
      · subst last
        simp
      · have before : 15 - place = (15 - (place + 1)) + 1 := by omega
        rw [ih (by omega), before, List.getD_cons_succ]
        simp [last]

/-- Bits of one number that are on top of equal registers are equal. -/
theorem topmost_injective {bits others : List Bool} (lengths : bits.length = others.length)
    (short : bits.length ≤ 16) (h : topmost bits = topmost others)
    : bits = others := by
  refine List.ext_getElem lengths fun index inside within => ?_
  have same := congrArg (fun register : UInt16 => register.toBitVec.getLsbD (15 - index)) h
  have back : 15 - (15 - index) = index := by omega
  rw [getLsbD_topmost bits (by omega), getLsbD_topmost others (by omega), back] at same
  simpa only [List.getD_eq_getElem?_getD, List.getElem?_eq_getElem, inside, within,
    Option.getD_some] using same

/-- A register whose last bit is clear is what a step makes of it moved down. -/
theorem shift_of_even {register : UInt16} (even : register.toBitVec.getLsbD 0 = false)
    : shift (register >>> 1) = register := by
  have half : (register >>> 1).toNat = register.toNat / 2 := by
    simp [Nat.shiftRight_eq_div_pow]
  have bound := register.toNat_lt
  have twice : register.toNat % 2 = 0 := by
    rw [BitVec.getLsbD, Nat.testBit_zero, decide_eq_false_iff_not] at even
    exact Nat.mod_two_ne_one.mp even
  have clear : (register >>> 1) &&& 0x8000 = 0 := by
    rw [leading_eq_zero_iff, half]
    omega
  rw [shift, if_pos clear]
  apply UInt16.toNat_inj.1
  rw [toNat_shiftLeft_one, half]
  omega

/-- Up to sixteen bits are taken in as a register that has them on top. -/
theorem foldl_feed_eq {bits : List Bool} (short : bits.length ≤ 16) (register : UInt16)
    : bits.foldl feed register = shifts bits.length (register ^^^ topmost bits) := by
  induction bits generalizing register with
  | nil => simp [shifts, topmost]
  | cons bit others ih =>
      rw [List.length_cons] at short
      have clear : (topmost others).toBitVec.getLsbD 0 = false := by
        rw [getLsbD_topmost others (by omega), List.getD_eq_getElem?_getD,
          List.getElem?_eq_none (by omega), Option.getD_none]
      rw [List.foldl_cons, ih (by omega), List.length_cons, shifts, topmost, ← UInt16.xor_assoc,
        shift_xor, shift_of_even clear, feed_eq]

/-- A byte is on top of a register where it is moved there. -/
theorem topmost_bitsOf (byte : UInt8) : topmost (Bytes.bitsOf byte) = byte.toUInt16 <<< 8 := by
  apply UInt16.toBitVec_inj.1
  apply BitVec.eq_of_getLsbD_eq
  intro place inside
  rw [getLsbD_topmost _ inside]
  by_cases low : place < 8
  · have beyond : ¬ 15 - place < 8 := by omega
    simp [Bytes.bitsOf, low, beyond]
  · have upper : 15 - place < 8 := by omega
    have back : 8 - 1 - (15 - place) = place - 8 := by omega
    simp [Bytes.bitsOf, low, upper, inside, BitVec.getMsbD, back]

/-- A byte is taken in from the table as its bits are one after the other. -/
theorem step_eq_foldl_feed (register : UInt16) (byte : UInt8)
    : step register byte = (Bytes.bitsOf byte).foldl feed register := by
  have length : (Bytes.bitsOf byte).length = 8 := by simp [Bytes.bitsOf]
  rw [step_eq, foldl_feed_eq (by omega), length, topmost_bitsOf]

/-- A byte string is taken in from the table as its bits are one after the other. -/
theorem foldl_step_eq (data : Bytes) (register : UInt16)
    : data.foldl step register = data.bits.foldl feed register := by
  induction data generalizing register with
  | nil => rfl
  | cons byte rest ih =>
      rw [List.foldl_cons, ih, step_eq_foldl_feed, Bytes.bits, Bytes.bits, List.flatMap_cons,
        List.foldl_append]

-----------------------------------------------------------------------------------------
-- Windows of sixteen bits
-----------------------------------------------------------------------------------------

/-- Messages that differ within sixteen neighbouring bits leave different registers. -/
theorem foldl_feed_window_injective {before first second behind : List Bool} {register : UInt16}
    (lengths : first.length = second.length) (short : first.length ≤ 16)
    (h : (before ++ first ++ behind).foldl feed register
      = (before ++ second ++ behind).foldl feed register)
    : first = second := by
  simp only [List.foldl_append] at h
  have window := foldl_feed_injective h
  have reach : second.length ≤ 16 := by rwa [← lengths]
  rw [foldl_feed_eq short, foldl_feed_eq reach, ← lengths] at window
  exact topmost_injective lengths short ((UInt16.xor_right_inj _).mp (shifts_injective window))

end Crc16

namespace Bytes

theorem bitsOf_injective {a b : UInt8} (h : bitsOf a = bitsOf b) : a = b := by
  apply UInt8.toBitVec_inj.1
  apply BitVec.eq_of_getMsbD_eq
  intro place inside
  have same := congrArg (fun bits => bits[place]?) h
  simpa [bitsOf, inside] using same

theorem length_bits (data : Bytes) : data.bits.length = 8 * data.length := by
  induction data with
  | nil => rfl
  | cons byte others ih =>
      have eight : (bitsOf byte).length = 8 := by simp [bitsOf]
      rw [bits, List.flatMap_cons, List.length_append, eight, ← bits, ih, List.length_cons]
      omega

/-- Byte strings of one length can be told apart by their bits. -/
theorem bits_injective {data other : Bytes} (lengths : data.length = other.length)
    (h : data.bits = other.bits)
    : data = other := by
  induction data generalizing other with
  | nil => exact (List.length_eq_zero_iff.mp lengths.symm).symm
  | cons byte rest ih =>
      cases other with
      | nil => cases lengths
      | cons first others =>
          have widths : (bitsOf byte).length = (bitsOf first).length := by simp [bitsOf]
          obtain ⟨same, left⟩ := List.append_inj h widths
          rw [bitsOf_injective same, ih (Nat.succ.inj lengths) left]

end Bytes

namespace Crc16

/-- Byte strings of one length that differ, but only within some window of sixteen neighbouring
bits, have different check values.
-/
theorem ofBytes_ne_of_window {data other : Bytes} (lengths : data.length = other.length)
    (differ : data ≠ other)
    (window : ∃ start, ∀ place, data.bits[place]? ≠ other.bits[place]?
      → start ≤ place ∧ place < start + 16)
    : ofBytes data ≠ ofBytes other := by
  obtain ⟨start, within⟩ := window
  intro equal
  apply differ
  apply Bytes.bits_injective lengths
  have widths : data.bits.length = other.bits.length := by
    rw [Bytes.length_bits, Bytes.length_bits, lengths]
  have same {place : Nat} (outside : place < start ∨ start + 16 ≤ place)
      : data.bits[place]? = other.bits[place]? :=
    Classical.byContradiction fun changed => by
      have := within place changed
      omega
  have before : data.bits.take start = other.bits.take start := by
    refine List.ext_getElem? fun place => ?_
    rw [List.getElem?_take, List.getElem?_take]
    split
    · next inside => exact same (.inl inside)
    · rfl
  have behind : data.bits.drop (start + 16) = other.bits.drop (start + 16) := by
    refine List.ext_getElem? fun place => ?_
    rw [List.getElem?_drop, List.getElem?_drop]
    exact same (.inr (Nat.le_add_right ..))
  have around (bits : List Bool)
      : bits = bits.take start ++ (bits.drop start).take 16 ++ bits.drop (start + 16) := by
    rw [List.append_assoc, ← List.drop_drop, List.take_append_drop, List.take_append_drop]
  have inner : (data.bits.drop start).take 16 = (other.bits.drop start).take 16 := by
    rw [ofBytes, ofBytes, foldl_step_eq, foldl_step_eq, around data.bits, around other.bits,
      before, behind] at equal
    exact foldl_feed_window_injective (by simp [widths]) (List.length_take_le ..) equal
  rw [around data.bits, around other.bits, before, behind, inner]

/-- A window across three bytes: the last bit of one, the next, and all but one bit of the third. -/
theorem ofBytes_ne_of_window_straddling
    : let data : Bytes := [0x55, 0x00, 0x00, 0x00, 0xAA]
      let other : Bytes := [0x55, 0x01, 0xFF, 0xFE, 0xAA]
      data.length = other.length
      ∧ data ≠ other
      ∧ (∃ start, ∀ place, data.bits[place]? ≠ other.bits[place]?
          → start ≤ place ∧ place < start + 16)
      ∧ ofBytes data ≠ ofBytes other := by
  intro data other
  have window : ∀ place, data.bits[place]? ≠ other.bits[place]?
      → 15 ≤ place ∧ place < 15 + 16 := by
    intro place changed
    have inside : place < 40 := by
      refine Nat.lt_of_not_le fun beyond => changed ?_
      rw [List.getElem?_eq_none (by rwa [Bytes.length_bits]),
        List.getElem?_eq_none (by rwa [Bytes.length_bits])]
    have shown : ∀ place < 40, data.bits[place]? ≠ other.bits[place]?
        → 15 ≤ place ∧ place < 15 + 16 := by
      decide +kernel
    exact shown place inside changed
  exact ⟨rfl, by decide, ⟨15, window⟩, ofBytes_ne_of_window rfl (by decide) ⟨15, window⟩⟩

end Crc16

end DiscVolume
