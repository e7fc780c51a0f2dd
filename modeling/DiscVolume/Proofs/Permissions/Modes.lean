import DiscVolume.Permissions
import DiscVolume.Proofs.Permissions.Bitwise

/-! Modes and bitmaps. A mode has three bits for each class and a bitmap five. One is made of the
other by bringing the three that they share from groups of one width into groups of the other.
-/

namespace DiscVolume.Permissions

open Bits

variable {first second : Int} {width next : Nat}

-----------------------------------------------------------------------------------------
-- Groups
-----------------------------------------------------------------------------------------

/-- The number of classes whose bits are below those of a class. -/
def Class.rank : Class → Nat
  | .other => 0
  | .group => 1
  | .owner => 2

theorem Class.place_eq (who : Class) : who.place = 5 * who.rank := by cases who <;> rfl

/-- Every place is in the group of a class, or above all groups. -/
theorem place_cases (place : Nat) (wide : 0 < width)
    : (∃ who : Class, ∃ index < width, place = width * who.rank + index) ∨ 3 * width ≤ place := by
  have ofRank (who : Class) (same : place / width = who.rank)
      : ∃ who : Class, ∃ index < width, place = width * who.rank + index :=
    ⟨who, place % width, Nat.mod_lt _ wide, by rw [← same, Nat.div_add_mod]⟩
  match same : place / width with
  | 0 => exact .inl (ofRank .other same)
  | 1 => exact .inl (ofRank .group same)
  | 2 => exact .inl (ofRank .owner same)
  | rank + 3 =>
      right
      calc
        3 * width ≤ (rank + 3) * width := Nat.mul_le_mul_right width (Nat.le_add_left 3 rank)
        _ = place / width * width := congrArg (· * width) same.symm
        _ ≤ place := Nat.div_mul_le_self place width

/-- Integers are the same if their groups are, and what is above the groups. -/
theorem eq_of_groups (width : Nat) (wide : 0 < width)
    (same : ∀ who : Class, ∀ index < width,
      bit first (width * who.rank + index) = bit second (width * who.rank + index))
    (above : ∀ place, 3 * width ≤ place → bit first place = bit second place)
    : first = second := by
  refine eq_of_bit fun place => ?_
  obtain ⟨who, index, inGroup, rfl⟩ | high := place_cases place wide
  · exact same who index inGroup
  · exact above place high

/-- The lowest three bits of each of three groups, in groups of another width. -/
def regroup (value : Int) (width next : Nat) : Int :=
  let access (place : Nat) : Int := Bits.and (down value place) accessMask
  Bits.or (Bits.or (access 0) (up (access width) next)) (up (access (2 * width)) (2 * next))

theorem bits_ofMode (mode : Int) : (ofMode mode).bits = regroup (Bits.and mode 0o777) 3 5 := rfl

theorem toMode_eq (permissions : Permissions)
    : permissions.toMode = regroup permissions.bits 5 3 := rfl

theorem bit_access (value : Int) (place index : Nat)
    : bit (Bits.and (down value place) accessMask) index
      = (bit value (place + index) && decide (index < 3)) := by
  have mask : bit accessMask index = decide (index < 3) := bit_ones 3 index
  rw [bit_and, bit_down, mask]

theorem bit_regroup (value : Int) (wide : 3 ≤ next) (who : Class) {index : Nat}
    (inGroup : index < next)
    : bit (regroup value width next) (next * who.rank + index)
      = (bit value (width * who.rank + index) && decide (index < 3)) := by
  simp only [regroup, bit_or, bit_up, bit_access]
  cases who <;> simp only [Class.rank] <;> grind

theorem bit_regroup_above (value : Int) (wide : 3 ≤ next) {place : Nat} (above : 3 * next ≤ place)
    : bit (regroup value width next) place = false := by
  simp only [regroup, bit_or, bit_up, bit_access]
  grind

theorem regroup_or (wide : 3 ≤ next)
    : regroup (Bits.or first second) width next
      = Bits.or (regroup first width next) (regroup second width next) := by
  refine eq_of_groups next (by omega) (fun who index inGroup => ?_) fun place above => ?_
  · simp only [bit_or, bit_regroup _ wide who inGroup, Bool.and_or_distrib_right]
  · simp only [bit_or, bit_regroup_above _ wide above, Bool.or_self]

theorem regroup_and (wide : 3 ≤ next)
    : regroup (Bits.and first second) width next
      = Bits.and (regroup first width next) (regroup second width next) := by
  refine eq_of_groups next (by omega) (fun who index inGroup => ?_) fun place above => ?_
  · simp only [bit_and, bit_regroup _ wide who inGroup]
    cases decide (index < 3) <;> simp
  · simp only [bit_and, bit_regroup_above _ wide above, Bool.and_self]

/-- Groups of three bits have no others, and come back as they were. -/
theorem regroup_three (value : Int) (wide : 3 ≤ next)
    : regroup (regroup value 3 next) next 3 = value % 2 ^ 9 := by
  refine eq_of_groups 3 (by decide) (fun who index inGroup => ?_) fun place above => ?_
  · have inNext : index < next := Nat.lt_of_lt_of_le inGroup wide
    have low : 3 * who.rank + index < 9 := by cases who <;> simp only [Class.rank] <;> omega
    rw [bit_regroup _ (Nat.le_refl 3) who inGroup, bit_regroup _ wide who inNext, bit_emod,
      decide_eq_true inGroup, decide_eq_true low, Bool.and_true, Bool.and_true, Bool.true_and]
  · rw [bit_regroup_above _ (Nat.le_refl 3) above, bit_emod,
      decide_eq_false (Nat.not_lt.mpr above), Bool.false_and]

/-- What is in groups of three bits is below the ninth place. -/
theorem regroup_emod (value : Int) : regroup value width 3 % 2 ^ 9 = regroup value width 3 := by
  refine eq_of_bit fun place => ?_
  rw [bit_emod]
  by_cases low : place < 9
  · rw [decide_eq_true low, Bool.true_and]
  · rw [decide_eq_false low, Bool.false_and,
      bit_regroup_above _ (Nat.le_refl 3) (Nat.not_lt.mp low)]

-----------------------------------------------------------------------------------------
-- Modes and bitmaps
-----------------------------------------------------------------------------------------

theorem and_ninth (value : Int) : Bits.and value 0o777 = value % 2 ^ 9 := and_ones value 9

/-- The access bits of all classes in a bitmap. -/
theorem bit_access_all (who : Class) {index : Nat} (inGroup : index < 5)
    : bit 0x1ce7 (5 * who.rank + index) = decide (index < 3) := by
  have made : (0x1ce7 : Int) = regroup (2 ^ 9 - 1) 3 5 := by decide
  have low : index < 3 → 3 * who.rank + index < 9 := by
    cases who <;> simp only [Class.rank] <;> omega
  rw [made, bit_regroup _ (by decide) who inGroup, bit_ones]
  by_cases access : index < 3
  · rw [decide_eq_true access, decide_eq_true (low access), Bool.and_self]
  · rw [decide_eq_false access, Bool.and_false]

theorem toMode_ofMode (mode : Int) : (ofMode mode).toMode = mode % 512 := by
  rw [toMode_eq, bits_ofMode, regroup_three _ (by decide), and_ninth]
  exact Int.emod_emod_of_dvd mode (by decide)

theorem ofMode_toMode (permissions : Permissions)
    : ofMode permissions.toMode = ⟨Bits.and permissions.bits 0x1ce7⟩ := by
  refine congrArg Permissions.mk ?_
  change regroup (Bits.and permissions.toMode 0o777) 3 5 = _
  rw [toMode_eq, and_ninth, regroup_emod]
  refine eq_of_groups 5 (by decide) (fun who index inGroup => ?_) fun place above => ?_
  · rw [bit_regroup _ (by decide) who inGroup, bit_and, bit_access_all who inGroup]
    by_cases access : index < 3
    · rw [bit_regroup _ (Nat.le_refl 3) who access, decide_eq_true access, Bool.and_true]
    · rw [decide_eq_false access, Bool.and_false, Bool.and_false]
  · rw [bit_regroup_above _ (by decide) above, bit_and,
      bit_eq_false 0x1ce7 15 place (by decide) (by decide) above, Bool.and_false]

theorem toMode_bounds (permissions : Permissions)
    : 0 ≤ permissions.toMode ∧ permissions.toMode ≤ 511 := by
  rw [toMode_eq, ← regroup_emod]
  omega

theorem ofMode_or (mode other : Int)
    : (ofMode (Bits.or mode other)).bits = Bits.or (ofMode mode).bits (ofMode other).bits := by
  have kept : Bits.and (Bits.or mode other) 0o777
      = Bits.or (Bits.and mode 0o777) (Bits.and other 0o777) := by
    refine eq_of_bit fun place => ?_
    simp only [bit_and, bit_or, Bool.and_or_distrib_right]
  simp only [bits_ofMode, kept, regroup_or (show 3 ≤ 5 by decide)]

theorem ofMode_and (mode other : Int)
    : (ofMode (Bits.and mode other)).bits = Bits.and (ofMode mode).bits (ofMode other).bits := by
  have kept : Bits.and (Bits.and mode other) 0o777
      = Bits.and (Bits.and mode 0o777) (Bits.and other 0o777) := by
    refine eq_of_bit fun place => ?_
    simp only [bit_and]
    cases bit 0o777 place <;> simp
  simp only [bits_ofMode, kept, regroup_and (show 3 ≤ 5 by decide)]

/-- A mode comes back with its lowest nine bits, and a bitmap with its access bits, which are a mode
of nine bits. Both ways keep what is in either of two numbers and what is in both, so that more
permissions on one side are never fewer on the other.
-/
theorem modes_correspond (mode otherMode bitmap otherBitmap : Int)
    : (ofMode mode).toMode = mode % 512
      ∧ ofMode (toMode ⟨bitmap⟩) = ⟨Bits.and bitmap 0x1ce7⟩
      ∧ (0 ≤ toMode ⟨bitmap⟩ ∧ toMode ⟨bitmap⟩ ≤ 511)
      ∧ (ofMode (Bits.or mode otherMode)).bits
        = Bits.or (ofMode mode).bits (ofMode otherMode).bits
      ∧ (ofMode (Bits.and mode otherMode)).bits
        = Bits.and (ofMode mode).bits (ofMode otherMode).bits
      ∧ toMode ⟨Bits.or bitmap otherBitmap⟩ = Bits.or (toMode ⟨bitmap⟩) (toMode ⟨otherBitmap⟩)
      ∧ toMode ⟨Bits.and bitmap otherBitmap⟩ = Bits.and (toMode ⟨bitmap⟩) (toMode ⟨otherBitmap⟩)
      ∧ Within (ofMode mode).bits (ofMode (Bits.or mode otherMode)).bits
      ∧ Within (toMode ⟨bitmap⟩) (toMode ⟨Bits.or bitmap otherBitmap⟩) := by
  have toMode_or : toMode ⟨Bits.or bitmap otherBitmap⟩
      = Bits.or (toMode ⟨bitmap⟩) (toMode ⟨otherBitmap⟩) := regroup_or (Nat.le_refl 3)
  have toMode_and : toMode ⟨Bits.and bitmap otherBitmap⟩
      = Bits.and (toMode ⟨bitmap⟩) (toMode ⟨otherBitmap⟩) := regroup_and (Nat.le_refl 3)
  refine ⟨toMode_ofMode mode, ofMode_toMode ⟨bitmap⟩, toMode_bounds ⟨bitmap⟩,
    ofMode_or mode otherMode, ofMode_and mode otherMode, toMode_or, toMode_and, ?_, ?_⟩
  · rw [ofMode_or]
    exact within_or _ _
  · rw [toMode_or]
    exact within_or _ _

end DiscVolume.Permissions
