import DiscVolume.Bits
import Mathlib.Data.Int.Bitwise

/-! Integers by their bits. Each operation is known by what it does to the bit at every place, and
integers with the same bits at all places are the same.
-/

namespace DiscVolume.Bits

theorem bit_eq_testBit (value : Int) (place : Nat) : bit value place = value.testBit place := by
  cases value with
  | ofNat number =>
      rw [Int.testBit, Nat.testBit_eq_decide_div_mod_eq, ← Nat.shiftRight_eq_div_pow]
      change decide (((number >>> place : Nat) : Int) % 2 = 1) = _
      exact decide_eq_decide.mpr (by omega)
  | negSucc number =>
      rw [Int.testBit, Nat.testBit_eq_decide_div_mod_eq, ← Nat.shiftRight_eq_div_pow, ← decide_not]
      change decide (Int.negSucc (number >>> place) % 2 = 1) = _
      exact decide_eq_decide.mpr (by omega)

-----------------------------------------------------------------------------------------
-- Integers with the same bits
-----------------------------------------------------------------------------------------

/-- High up there are only zeros in a number that is not negative, and ones in a negative one. -/
theorem exists_bit_ne (first second : Nat)
    : ∃ place, bit (.ofNat first) place ≠ bit (.negSucc second) place := by
  have zero {number : Nat} (small : number ≤ first + second)
      : number.testBit (first + second) = false :=
    Nat.testBit_lt_two_pow (Nat.lt_of_le_of_lt small Nat.lt_two_pow_self)
  refine ⟨first + second, ?_⟩
  rw [bit_eq_testBit, bit_eq_testBit, Int.testBit, Int.testBit, zero (Nat.le_add_right ..),
    zero (Nat.le_add_left ..)]
  decide

theorem eq_of_bit {first second : Int} (same : ∀ place, bit first place = bit second place)
    : first = second := by
  cases first with
  | ofNat first =>
      cases second with
      | ofNat second =>
          refine congrArg Int.ofNat (Nat.eq_of_testBit_eq fun place => ?_)
          simpa only [bit_eq_testBit, Int.testBit] using same place
      | negSucc second =>
          obtain ⟨place, differ⟩ := exists_bit_ne first second
          exact absurd (same place) differ
  | negSucc first =>
      cases second with
      | ofNat second =>
          obtain ⟨place, differ⟩ := exists_bit_ne second first
          exact absurd (same place).symm differ
      | negSucc second =>
          refine congrArg Int.negSucc (Nat.eq_of_testBit_eq fun place => ?_)
          simpa only [bit_eq_testBit, Int.testBit, Bool.not_inj_iff] using same place

-----------------------------------------------------------------------------------------
-- The bits of results
-----------------------------------------------------------------------------------------

theorem without_eq_ldiff (first second : Nat) : without first second = first.ldiff second := by
  refine Nat.eq_of_testBit_eq fun place => ?_
  rw [without, Nat.testBit_xor, Nat.testBit_and, Nat.testBit_ldiff]
  cases first.testBit place <;> cases second.testBit place <;> rfl

theorem and_eq_land (first second : Int) : and first second = first.land second := by
  cases first <;> cases second <;> simp only [and, Int.land, without_eq_ldiff] <;> rfl

theorem or_eq_lor (first second : Int) : or first second = first.lor second := by
  cases first <;> cases second <;> simp only [or, Int.lor, without_eq_ldiff]
  rfl

theorem not_eq_lnot (value : Int) : not value = value.lnot := by
  cases value with
  | ofNat number =>
      rw [not, Int.lnot, Int.negSucc_eq, Int.ofNat_eq_natCast]
      omega
  | negSucc number =>
      rw [not, Int.lnot, Int.negSucc_eq]
      omega

variable (first second value : Int) (places place : Nat)

@[simp]
theorem bit_and : bit (and first second) place = (bit first place && bit second place) := by
  simp only [bit_eq_testBit, and_eq_land, Int.testBit_land]

@[simp]
theorem bit_or : bit (or first second) place = (bit first place || bit second place) := by
  simp only [bit_eq_testBit, or_eq_lor, Int.testBit_lor]

@[simp]
theorem bit_not : bit (not value) place = !bit value place := by
  simp only [bit_eq_testBit, not_eq_lnot, Int.testBit_lnot]

@[simp]
theorem bit_down : bit (down value places) place = bit value (places + place) := by
  rw [bit, bit, down, Int.shiftRight_add]

/-- Below the number of places that bits are moved up there are only zeros. -/
@[simp]
theorem bit_up
    : bit (up value places) place = (decide (places ≤ place) && bit value (place - places)) := by
  by_cases above : places ≤ place
  · obtain ⟨rest, rfl⟩ := Nat.exists_eq_add_of_le above
    have kept : value <<< places >>> places = value := by
      rw [Int.shiftLeft_eq, Int.shiftRight_eq_div_pow, Nat.cast_pow, Nat.cast_ofNat]
      exact Int.mul_ediv_cancel _ (Int.ne_of_gt (Int.pow_pos (by decide)))
    rw [decide_eq_true above, Bool.true_and, Nat.add_sub_cancel_left, bit, up,
      Int.shiftRight_add, kept, bit]
  · obtain ⟨rest, rfl⟩ := Nat.exists_eq_add_of_lt (Nat.lt_of_not_le above)
    have even : value <<< (place + rest + 1) >>> place = value * 2 ^ rest * 2 := by
      rw [Int.shiftLeft_eq, Int.shiftRight_eq_div_pow, Nat.cast_pow, Nat.cast_ofNat, Nat.add_assoc,
        Int.pow_add, Int.pow_succ, Int.mul_left_comm,
        Int.mul_ediv_cancel_left _ (Int.ne_of_gt (Int.pow_pos (by decide))), Int.mul_assoc]
    rw [decide_eq_false above, Bool.false_and, bit, up, even, Int.mul_emod_left]
    rfl

/-- What is left of a number is its lowest bits. -/
theorem bit_emod
    : bit (value % 2 ^ places) place = (decide (place < places) && bit value place) := by
  cases value with
  | ofNat number =>
      have cast : Int.ofNat number % 2 ^ places = .ofNat (number % 2 ^ places) := by
        simp only [Int.ofNat_eq_natCast, Nat.cast_pow, Nat.cast_ofNat, Int.natCast_emod]
      rw [cast, bit_eq_testBit, bit_eq_testBit, Int.testBit, Int.testBit, Nat.testBit_mod_two_pow]
  | negSucc number =>
      have bound : number % 2 ^ places < 2 ^ places := Nat.mod_lt _ (Nat.two_pow_pos _)
      have cast : Int.negSucc number % 2 ^ places
          = .ofNat (2 ^ places - (number % 2 ^ places + 1)) := by
        rw [Int.negSucc_emod _ (Int.pow_pos (by decide)), Int.ofNat_eq_natCast, Nat.cast_sub bound]
        push_cast
        omega
      rw [cast, bit_eq_testBit, bit_eq_testBit, Int.testBit, Int.testBit,
        Nat.testBit_two_pow_sub_succ bound, Nat.testBit_mod_two_pow]
      cases decide (place < places) <;> rfl

/-- The number before a power of two has all the bits below it. -/
theorem bit_ones : bit (2 ^ places - 1) place = decide (place < places) := by
  have cast : (2 : Int) ^ places - 1 = .ofNat (2 ^ places - 1) := by
    rw [Int.ofNat_eq_natCast, Nat.cast_sub Nat.one_le_two_pow]
    push_cast
    rfl
  rw [cast, bit_eq_testBit, Int.testBit, Nat.testBit_two_pow_sub_one]

/-- To keep the lowest bits is to take the remainder. -/
theorem and_ones : and value (2 ^ places - 1) = value % 2 ^ places := by
  refine eq_of_bit fun place => ?_
  rw [bit_and, bit_ones, bit_emod, Bool.and_comm]

/-- A number that is not negative has no bits from the first power of two above it on. -/
theorem bit_eq_false (nonneg : 0 ≤ value) (small : value < 2 ^ places) (above : places ≤ place)
    : bit value place = false := by
  rw [← Int.emod_eq_of_lt nonneg small, bit_emod, decide_eq_false (Nat.not_lt.mpr above),
    Bool.false_and]

@[simp]
theorem bit_zero : bit 0 place = false :=
  bit_eq_false 0 0 place (Int.le_refl 0) (by decide) (Nat.zero_le place)

/-- Every bit of one number is a bit of another one. -/
def Within (first second : Int) : Prop := ∀ place, bit first place → bit second place

theorem within_or (first second : Int) : Within first (or first second) := by
  intro place there
  rw [bit_or, there, Bool.true_or]

end DiscVolume.Bits
