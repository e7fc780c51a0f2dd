/-! Byte strings, the little-endian numbers they spell and the single-byte text they hold.
A byte string is a list, which recursion and proofs can take apart. Disk images are large, so
they stay packed and are cut into lists on demand.
-/

namespace DiscVolume

/-- A string of bytes, first byte first. -/
abbrev Bytes := List UInt8

namespace Bytes

/-- (covers count bytes) tells whether at least count bytes are present, without measuring
the rest of the string.
-/
def covers : Nat → Bytes → Bool
  | 0, _ => true
  | _ + 1, [] => false
  | count + 1, _ :: rest => covers count rest

theorem covers_iff {count : Nat} {bytes : Bytes}
    : covers count bytes ↔ count ≤ bytes.length := by
  induction count generalizing bytes with
  | zero => simp [covers]
  | succ count ih =>
      cases bytes with
      | nil => simp [covers]
      | cons byte rest => simp [covers, ih]

/-- The number a byte string spells, least significant byte first. -/
def littleEndian : Bytes → Nat
  | [] => 0
  | byte :: rest => byte.toNat + 256 * littleEndian rest

/-- (ofNat width value) spells the low width bytes of a value, least significant first. -/
def ofNat : Nat → Nat → Bytes
  | 0, _ => []
  | width + 1, value => UInt8.ofNat value :: ofNat width (value / 256)

@[simp] theorem length_ofNat (width value : Nat) : (ofNat width value).length = width := by
  induction width generalizing value with
  | zero => rfl
  | succ width ih => simp [ofNat, ih]

/-- One byte more holds 256 times as many numbers. -/
theorem numbers_succ (width : Nat) : 1 <<< (8 * (width + 1)) = 256 * 1 <<< (8 * width) := by
  rw [Nat.mul_succ, Nat.shiftLeft_add, Nat.shiftLeft_eq _ 8, Nat.mul_comm]

/-- A number spelled in a given width reads back reduced to that width. -/
theorem littleEndian_ofNat (width value : Nat)
    : littleEndian (ofNat width value) = value % 1 <<< (8 * width) := by
  induction width generalizing value with
  | zero => simp [ofNat, littleEndian, Nat.mod_one]
  | succ width ih =>
      rw [ofNat, littleEndian, ih, numbers_succ, Nat.mod_mul]
      simp

/-- The first bytes of a number spell its remainder, and the others its quotient. -/
theorem ofNat_add (first second value : Nat)
    : ofNat (first + second) value
      = ofNat first value ++ ofNat second (value / 1 <<< (8 * first)) := by
  induction first generalizing value with
  | zero => simp [ofNat]
  | succ first ih =>
      rw [Nat.add_right_comm, ofNat, ofNat, ih, numbers_succ, ← Nat.div_div_eq_div_mul,
        List.cons_append]

/-- What does not fit into a width is left out. -/
theorem ofNat_mod (width value : Nat)
    : ofNat width (value % 1 <<< (8 * width)) = ofNat width value := by
  induction width generalizing value with
  | zero => rfl
  | succ width ih =>
      have low : UInt8.ofNat (value % (256 * 1 <<< (8 * width))) = UInt8.ofNat value := by
        rw [← UInt8.toNat_inj, UInt8.toNat_ofNat', UInt8.toNat_ofNat']
        exact Nat.mod_mul_right_mod ..
      rw [ofNat, ofNat, numbers_succ, Nat.mod_mul_right_div_self, ih, low]

/-- A byte string of a given length spells a number below the matching power of 256. -/
theorem littleEndian_lt (bytes : Bytes) : littleEndian bytes < 1 <<< (8 * bytes.length) := by
  induction bytes with
  | nil => simp [littleEndian]
  | cons byte rest ih =>
      have bound := byte.toNat_lt
      rw [littleEndian, List.length_cons, numbers_succ]
      omega

/-- What the first bytes of a string spell is below the matching power of 256. -/
theorem littleEndian_take_lt (bytes : Bytes) (width : Nat)
    : littleEndian (bytes.take width) < 1 <<< (8 * width) := by
  refine Nat.lt_of_lt_of_le (littleEndian_lt _) ?_
  rw [Nat.one_shiftLeft, Nat.one_shiftLeft]
  exact Nat.pow_le_pow_right (by decide) (Nat.mul_le_mul_left 8 (List.length_take_le ..))

/-- What comes second counts as often as there are numbers in the width of the first. -/
theorem littleEndian_append (first second : Bytes)
    : littleEndian (first ++ second)
      = littleEndian first + 1 <<< (8 * first.length) * littleEndian second := by
  induction first with
  | nil => simp [littleEndian]
  | cons byte rest ih =>
      rw [List.cons_append, littleEndian, littleEndian, ih, List.length_cons, numbers_succ,
        Nat.mul_add, Nat.mul_assoc, Nat.add_assoc]

/-- The number that a byte string spells is spelled by it. -/
theorem ofNat_littleEndian (bytes : Bytes) : ofNat bytes.length (littleEndian bytes) = bytes := by
  induction bytes with
  | nil => rfl
  | cons byte rest ih =>
      have bound := byte.toNat_lt
      have high : (byte.toNat + 256 * littleEndian rest) / 256 = littleEndian rest := by omega
      have low : UInt8.ofNat (byte.toNat + 256 * littleEndian rest) = byte := by
        rw [← UInt8.toNat_inj, UInt8.toNat_ofNat']
        omega
      rw [List.length_cons, littleEndian, ofNat, high, low, ih]

/-- Single-byte text: byte b stands for the character with code point b. -/
def latin1 (bytes : Bytes) : String :=
  String.ofList (bytes.map fun byte => Char.ofNat byte.toNat)

/-- A byte string without its trailing zero bytes. -/
def trimZeros : Bytes → Bytes
  | [] => []
  | byte :: rest =>
      match trimZeros rest with
      | [] => if byte = 0 then [] else [byte]
      | kept => byte :: kept

end Bytes

end DiscVolume
