import DiscVolume.Proofs.Checksum.Bitwise
import Mathlib

/-! The check value as a remainder. A byte string stands for the polynomial over the field of two
elements that has its bits as coefficients, and a register for one of degree below sixteen. Taking
in a bit keeps the register the remainder of what was taken in so far, moved up by sixteen places,
by the polynomial of the check.
-/

namespace DiscVolume.Crc16

open Polynomial

/-- A bit as an element of the field. -/
def coefficient (bit : Bool) : ZMod 2 := if bit then 1 else 0

/-- The polynomial with some bits as coefficients, the first bit at the highest power. -/
noncomputable def ofBits (bits : List Bool) : (ZMod 2)[X] :=
  bits.foldl (fun polynomial bit => polynomial * X + C (coefficient bit)) 0

/-- The polynomial with the bits of a register as coefficients. -/
noncomputable def ofRegister (register : UInt16) : (ZMod 2)[X] :=
  ∑ place ∈ Finset.range 16, C (coefficient (register.toBitVec.getLsbD place)) * X ^ place

/-- The polynomial that the check divides by. -/
noncomputable def generator : (ZMod 2)[X] := X ^ 16 + X ^ 12 + X ^ 5 + 1

theorem coefficient_xor (a b : Bool)
    : coefficient (a ^^ b) = coefficient a + coefficient b := by
  cases a <;> cases b <;> decide

theorem coeff_ofRegister (register : UInt16) (place : Nat)
    : (ofRegister register).coeff place = coefficient (register.toBitVec.getLsbD place) := by
  simp only [ofRegister, finsetSum_coeff, coeff_C_mul, coeff_X_pow, mul_ite, mul_one, mul_zero,
    Finset.sum_ite_eq, Finset.mem_range]
  split
  · rfl
  · next beyond =>
      rw [BitVec.getLsbD_of_ge _ _ (Nat.le_of_not_lt beyond)]
      rfl

theorem ofRegister_xor (a b : UInt16)
    : ofRegister (a ^^^ b) = ofRegister a + ofRegister b := by
  ext place
  rw [coeff_add, coeff_ofRegister, coeff_ofRegister, coeff_ofRegister, UInt16.toBitVec_xor,
    BitVec.getLsbD_xor, coefficient_xor]

theorem degree_ofRegister_lt (register : UInt16) : (ofRegister register).degree < 16 := by
  rw [show (16 : WithBot ℕ) = ((16 : ℕ) : WithBot ℕ) from rfl, degree_lt_iff_coeff_zero]
  intro place beyond
  rw [coeff_ofRegister, BitVec.getLsbD_of_ge _ _ beyond]
  rfl

theorem monic_generator : generator.Monic := by
  unfold generator
  monicity!

theorem degree_generator : generator.degree = 16 := by
  unfold generator
  compute_degree!

/-- The constant holds the polynomial below its leading term. -/
theorem generator_eq : generator = X ^ 16 + ofRegister polynomial := by
  have below : ofRegister polynomial = X ^ 12 + X ^ 5 + 1 := by
    simp +decide [ofRegister, Finset.sum_range_succ, coefficient]
    ring
  rw [generator, below]
  ring

/-- Moving a register up multiplies its polynomial, but for the leading bit, which is lost. -/
theorem ofRegister_shiftLeft (register : UInt16)
    : ofRegister (register <<< 1) + C (coefficient register.toBitVec.msb) * X ^ 16
      = ofRegister register * X := by
  ext place
  rw [coeff_add, coeff_ofRegister, coeff_C_mul, coeff_X_pow]
  cases place with
  | zero => simp [coefficient]
  | succ place =>
      rw [coeff_mul_X, coeff_ofRegister]
      rcases Nat.lt_trichotomy place 15 with inside | rfl | beyond
      · have moved : (register <<< 1).toBitVec.getLsbD (place + 1)
            = register.toBitVec.getLsbD place := by
          simp
          omega
        have lower : place + 1 ≠ 16 := by omega
        rw [moved, if_neg lower, mul_zero, add_zero]
      · simp [coefficient, BitVec.msb_eq_getLsbD_last]
      · have gone : register.toBitVec.getLsbD place = false := BitVec.getLsbD_of_ge _ _ beyond
        have higher : place + 1 ≠ 16 := by omega
        rw [BitVec.getLsbD_of_ge _ _ (by omega), gone, if_neg higher, mul_zero, add_zero]

/-- A bit is taken in by a step of the long division. -/
theorem ofRegister_feed (register : UInt16) (bit : Bool)
    : ∃ quotient, ofRegister register * X + C (coefficient bit) * X ^ 16
        = ofRegister (feed register bit) + generator * quotient := by
  rw [← ofRegister_shiftLeft, add_assoc, ← add_mul, ← C_add, ← coefficient_xor]
  refine ⟨C (coefficient (register.toBitVec.msb ^^ bit)), ?_⟩
  rw [feed]
  split
  · next same => simp [same, coefficient]
  · next differs =>
      have set : (register.toBitVec.msb ^^ bit) = true := by simpa using differs
      rw [ofRegister_xor, generator_eq, set, coefficient, if_pos rfl, C_1]
      have twice : ofRegister polynomial + ofRegister polynomial = 0 := CharTwo.add_self_eq_zero _
      linear_combination -twice

/-- After any bits the register is what is left of them, by induction from the last bit. -/
theorem exists_quotient (bits : List Bool)
    : ∃ quotient, ofBits bits * X ^ 16
        = ofRegister (bits.foldl feed 0) + generator * quotient := by
  induction bits using List.reverseRecOn with
  | nil => exact ⟨0, by simp [ofBits, ofRegister, coefficient]⟩
  | append_singleton bits bit ih =>
      obtain ⟨before, divided⟩ := ih
      obtain ⟨next, step⟩ := ofRegister_feed (bits.foldl feed 0) bit
      refine ⟨before * X + next, ?_⟩
      rw [List.foldl_concat]
      calc ofBits (bits ++ [bit]) * X ^ 16
          = (ofBits bits * X ^ 16) * X + C (coefficient bit) * X ^ 16 := by
            rw [ofBits, List.foldl_concat, ← ofBits]
            ring
        _ = (ofRegister (bits.foldl feed 0) * X + C (coefficient bit) * X ^ 16)
              + generator * (before * X) := by
            rw [divided]
            ring
        _ = ofRegister (feed (bits.foldl feed 0) bit) + generator * (before * X + next) := by
            rw [step]
            ring

/-- What is left of some bits is the remainder. -/
theorem ofRegister_foldl_feed (bits : List Bool)
    : ofRegister (bits.foldl feed 0) = (ofBits bits * X ^ 16) %ₘ generator := by
  obtain ⟨quotient, divided⟩ := exists_quotient bits
  have small : (ofRegister (bits.foldl feed 0)).degree < generator.degree := by
    rw [degree_generator]
    exact degree_ofRegister_lt _
  exact (div_modByMonic_unique quotient _ monic_generator ⟨divided.symm, small⟩).2.symm

/-- A register can be told from its polynomial. -/
theorem ofRegister_injective {a b : UInt16} (h : ofRegister a = ofRegister b) : a = b := by
  apply UInt16.toBitVec_inj.1
  apply BitVec.eq_of_getLsbD_eq
  intro place _
  have same := congrArg (fun polynomial : (ZMod 2)[X] => polynomial.coeff place) h
  simp only [coeff_ofRegister] at same
  revert same
  cases a.toBitVec.getLsbD place <;> cases b.toBitVec.getLsbD place <;> decide

-----------------------------------------------------------------------------------------
-- Registers without a bound
-----------------------------------------------------------------------------------------

/-- The place in the table for the next byte, where registers are numbers of any size. -/
def tableIndex (register : Nat) (byte : UInt8) : Nat :=
  byte.toNat ^^^ ((register >>> 8) &&& 0xFF)

/-- The register after one more byte, where registers are numbers of any size and what moves out at
the top is masked away. There is none where the table has no entry.
-/
def unboundedStep? (register : Nat) (byte : UInt8) : Option Nat := do
  let entry ← table[tableIndex register byte]?
  return entry.toNat ^^^ ((register <<< 8) &&& 0xFF00)

theorem tableIndex_toNat (register : UInt16) (byte : UInt8)
    : tableIndex register.toNat byte = (byte ^^^ (register >>> 8).toUInt8).toNat := by
  simp [tableIndex, Nat.and_two_pow_sub_one_eq_mod _ 8]

/-- A register of sixteen bits stays one, so the masks take away just what it cannot hold. -/
theorem unboundedStep?_toNat (register : UInt16) (byte : UInt8)
    : unboundedStep? register.toNat byte = some (step register byte).toNat := by
  have masked : (register <<< 8).toNat = (register.toNat <<< 8) &&& 0xFF00 := by
    have mask : 0xFF00 = 0xFF <<< 8 := rfl
    rw [mask, ← Nat.shiftLeft_and_distrib, Nat.and_two_pow_sub_one_eq_mod _ 8,
      toNat_shiftLeft_eight, Nat.shiftLeft_eq]
    omega
  have inside := (byte ^^^ (register >>> 8).toUInt8).toNat_lt
  rw [unboundedStep?, tableIndex_toNat, Vector.getElem?_eq_getElem inside, step,
    UInt16.toNat_xor, masked]
  rfl

theorem foldlM_unboundedStep? (data : Bytes) (register : UInt16)
    : data.foldlM unboundedStep? register.toNat = some (data.foldl step register).toNat := by
  induction data generalizing register with
  | nil => rfl
  | cons byte rest ih =>
      rw [List.foldlM_cons, unboundedStep?_toNat, List.foldl_cons, ← ih]
      rfl

-----------------------------------------------------------------------------------------
-- The check value
-----------------------------------------------------------------------------------------

/-- The check value from the table is what taking in the bits one at a time comes to, and the one
register whose polynomial is the remainder of the byte string, moved up by sixteen places. On
numbers of any size it comes out the same: no register leaves the sixteen bits, and no index the
table.
-/
theorem ofBytes_isRemainder (data : Bytes)
    : ofBytes data = data.bits.foldl feed 0
      ∧ (∀ register,
          ofRegister register = (ofBits data.bits * X ^ 16) %ₘ generator
            ↔ register = ofBytes data)
      ∧ data.foldlM unboundedStep? 0 = some (ofBytes data).toNat
      ∧ ∀ count, ∃ register, (data.take count).foldlM unboundedStep? 0 = some register
          ∧ register < 65536
          ∧ ∀ byte, tableIndex register byte < 256 := by
  have bitwise : ofBytes data = data.bits.foldl feed 0 := foldl_step_eq data 0
  refine ⟨bitwise, fun register => ?_, foldlM_unboundedStep? data 0, fun count => ?_⟩
  · rw [bitwise, ← ofRegister_foldl_feed]
    exact ⟨ofRegister_injective, congrArg ofRegister⟩
  · refine ⟨_, foldlM_unboundedStep? (data.take count) 0, UInt16.toNat_lt _, fun byte => ?_⟩
    rw [tableIndex_toNat]
    exact UInt8.toNat_lt _

example : ofBytes "123456789".toUTF8.data.toList = 0x31C3 := by decide +kernel

end DiscVolume.Crc16
