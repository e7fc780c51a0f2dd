import DiscVolume.Checksum

/-! The check value of a body tells apart any two bodies that differ within two neighbouring
bytes. The steps of the division are linear in exclusive or and lose nothing, so two registers
that differ stay different; and the first two bytes in which bodies differ are, up to linear
steps, a number of sixteen bits.
-/

namespace DiscVolume.Crc16

/-- A register is tested for its leading bit by a mask. -/
theorem leading_eq_zero_iff_msb (register : UInt16)
    : register &&& 0x8000 = 0 ↔ register.toBitVec.msb = false := by
  have leading : (0x8000 : UInt16).toBitVec = BitVec.twoPow 16 15 := by decide
  rw [← UInt16.toBitVec_inj, UInt16.toBitVec_and, leading, BitVec.and_twoPow,
    BitVec.msb_eq_getLsbD_last]
  cases register.toBitVec.getLsbD 15 <;> simp

/-- The leading bit of a register is clear when its value is in the lower half. -/
theorem leading_eq_zero_iff (register : UInt16)
    : register &&& 0x8000 = 0 ↔ register.toNat < 0x8000 := by
  rw [leading_eq_zero_iff_msb, BitVec.msb_eq_decide]
  simp

/-- What one step of the division subtracts after moving the register up. -/
def reduction (register : UInt16) : UInt16 :=
  if register &&& 0x8000 = 0 then 0 else polynomial

theorem shift_eq (register : UInt16)
    : shift register = (register <<< 1) ^^^ reduction register := by
  unfold shift reduction
  split <;> simp

/-- Whether the polynomial is subtracted depends on one bit, so it is linear. -/
theorem reduction_xor (a b : UInt16) : reduction (a ^^^ b) = reduction a ^^^ reduction b := by
  simp only [reduction, leading_eq_zero_iff_msb, UInt16.toBitVec_xor, BitVec.msb_xor]
  cases a.toBitVec.msb <;> cases b.toBitVec.msb <;> simp

/-- A step of the division is linear. -/
theorem shift_xor (a b : UInt16) : shift (a ^^^ b) = shift a ^^^ shift b := by
  simp only [shift_eq, reduction_xor, UInt16.shiftLeft_xor]
  ac_rfl

/-- Any number of steps is linear, by induction. -/
theorem shifts_xor (count : Nat) (a b : UInt16)
    : shifts count (a ^^^ b) = shifts count a ^^^ shifts count b := by
  induction count generalizing a b with
  | zero => rfl
  | succ count ih => simp only [shifts, shift_xor, ih]

theorem toNat_shiftLeft_one (register : UInt16)
    : (register <<< 1).toNat = register.toNat * 2 % 65536 := by
  simp [Nat.shiftLeft_eq]

/-- A step clears only a clear register: without a subtraction nothing is lost, and a
subtraction sets the last bit.
-/
theorem eq_zero_of_shift {register : UInt16} (h : shift register = 0) : register = 0 := by
  have bound := register.toNat_lt
  rw [shift_eq, reduction] at h
  split at h
  · next clear =>
      rw [leading_eq_zero_iff] at clear
      rw [UInt16.xor_zero] at h
      have value := congrArg UInt16.toNat h
      rw [toNat_shiftLeft_one, UInt16.toNat_zero] at value
      apply UInt16.toNat_inj.1
      rw [UInt16.toNat_zero]
      omega
  · -- What was moved up is even, and the polynomial is odd.
    rw [UInt16.xor_eq_zero_iff] at h
    have value := congrArg UInt16.toNat h
    have odd : polynomial.toNat = 4129 := by decide
    rw [toNat_shiftLeft_one, odd] at value
    omega

/-- A step loses nothing, by linearity. -/
theorem shift_injective {a b : UInt16} (h : shift a = shift b) : a = b := by
  have difference : shift (a ^^^ b) = 0 := by rw [shift_xor, h, UInt16.xor_self]
  exact UInt16.xor_eq_zero_iff.mp (eq_zero_of_shift difference)

/-- Any number of steps loses nothing, by induction. -/
theorem shifts_injective {count : Nat} {a b : UInt16} (h : shifts count a = shifts count b)
    : a = b := by
  induction count generalizing a b with
  | zero => exact h
  | succ count ih => exact shift_injective (ih h)

/-- As long as nothing leaves the register, steps only move its value up. -/
theorem toNat_shifts {count : Nat} {register : UInt16} (h : register.toNat <<< count < 65536)
    : (shifts count register).toNat = register.toNat <<< count := by
  induction count generalizing register with
  | zero => rfl
  | succ count ih =>
      have double : register.toNat <<< (count + 1) = (register.toNat * 2) <<< count := by
        rw [Nat.shiftLeft_eq, Nat.shiftLeft_eq, Nat.pow_succ', Nat.mul_assoc]
      have lower : register.toNat * 2 < 65536 := by
        have := Nat.le_mul_of_pos_right (register.toNat * 2) (Nat.two_pow_pos count)
        rw [double, Nat.shiftLeft_eq] at h
        omega
      have clear : register &&& 0x8000 = 0 := by
        rw [leading_eq_zero_iff]
        omega
      have moved : (shift register).toNat = register.toNat * 2 := by
        rw [shift_eq, reduction, if_pos clear, UInt16.xor_zero, toNat_shiftLeft_one]
        omega
      rw [shifts, double, ← moved]
      exact ih (by rwa [moved, ← double])

theorem toNat_shiftLeft_eight (register : UInt16)
    : (register <<< 8).toNat = register.toNat * 256 % 65536 := by
  simp [Nat.shiftLeft_eq]

/-- Eight steps move a byte from the lower to the upper half of the register. -/
theorem shifts_eight {register : UInt16} (h : register.toNat < 256)
    : shifts 8 register = register <<< 8 := by
  have moved : register.toNat <<< 8 = register.toNat * 256 := Nat.shiftLeft_eq _ _
  apply UInt16.toNat_inj.1
  rw [toNat_shifts (by omega), toNat_shiftLeft_eight]
  omega

/-- Eight steps of the low byte of a register move the register up. -/
theorem shifts_low (register : UInt16) : shifts 8 (register &&& 0xFF) = register <<< 8 := by
  have low : (register &&& 0xFF).toNat = register.toNat % 256 := by
    rw [UInt16.toNat_and]
    exact Nat.and_two_pow_sub_one_eq_mod register.toNat 8
  rw [shifts_eight (by omega)]
  apply UInt16.toNat_inj.1
  rw [toNat_shiftLeft_eight, toNat_shiftLeft_eight, low]
  omega

/-- The bits of the mask of a low byte. -/
theorem getLsbD_lowMask (place : Nat)
    : (0xFF : UInt16).toBitVec.getLsbD place = decide (place < 8) := by
  have mask : (0xFF : UInt16).toBitVec = BitVec.ofNat 16 (2 ^ 8 - 1) := by decide
  rw [mask, BitVec.getLsbD_ofNat, Nat.testBit_two_pow_sub_one]
  by_cases low : place < 8
  · simp [low]
    omega
  · simp [low]

/-- A register with a byte on top of it splits into the index of the table and its low byte. -/
theorem split_register (register : UInt16) (byte : UInt8)
    : register ^^^ (byte.toUInt16 <<< 8)
      = ((byte ^^^ (register >>> 8).toUInt8).toUInt16 <<< 8) ^^^ (register &&& 0xFF) := by
  apply UInt16.toBitVec_inj.1
  apply BitVec.eq_of_getLsbD_eq
  intro place inside
  simp only [UInt16.toBitVec_xor, UInt16.toBitVec_shiftLeft, UInt8.toBitVec_toUInt16,
    UInt8.toBitVec_xor, UInt16.toBitVec_toUInt8, UInt16.toBitVec_shiftRight,
    UInt16.toBitVec_and, BitVec.getLsbD_xor, BitVec.getLsbD_and, getLsbD_lowMask]
  by_cases low : place < 8
  · simp [low]
  · have back : 8 + (place - 8) = place := by omega
    have upper : place - 8 < 8 := by omega
    simp [low, inside, back, upper, Nat.lt_trans upper, Bool.xor_comm,
      -BitVec.setWidth_ushiftRight]

/-- The table holds eight steps of each byte on top of an empty register. -/
theorem table_get (index : UInt8)
    : table.get ⟨index.toNat, index.toNat_lt⟩ = shifts 8 (index.toUInt16 <<< 8) := by
  have entry : table.toList[index.toNat]? = some (shifts 8 (UInt16.ofNat index.toNat <<< 8)) := by
    rw [toList_table, List.getElem?_map, List.getElem?_range index.toNat_lt, Option.map_some]
  rw [Vector.getElem?_toList, Vector.getElem?_eq_getElem index.toNat_lt, Option.some_inj] at entry
  refine Eq.trans ?_ (entry.trans ?_)
  · rfl
  · simp

/-- A byte is taken in by eight steps of division, with the byte subtracted at the top. -/
theorem step_eq (register : UInt16) (byte : UInt8)
    : step register byte = shifts 8 (register ^^^ (byte.toUInt16 <<< 8)) := by
  rw [split_register, shifts_xor, shifts_low, ← table_get]
  rfl

/-- Registers that differ before a byte differ after it. -/
theorem step_injective {a b : UInt16} {byte : UInt8} (h : step a byte = step b byte) : a = b := by
  rw [step_eq, step_eq] at h
  exact (UInt16.xor_left_inj _).mp (shifts_injective h)

/-- Registers that differ before some data differ after it, by induction. -/
theorem foldl_step_injective {data : Bytes} {a b : UInt16}
    (h : data.foldl step a = data.foldl step b)
    : a = b := by
  induction data generalizing a b with
  | nil => exact h
  | cons byte rest ih => exact step_injective (ih h)

/-- Two bytes are taken in like a number of sixteen bits. -/
theorem step_step (register : UInt16) (first second : UInt8)
    : step (step register first) second
      = shifts 8 (shifts 8 (register ^^^ (first.toUInt16 <<< 8 ^^^ second.toUInt16))) := by
  have lower : second.toUInt16.toNat < 256 := by simpa using second.toNat_lt
  rw [step_eq, step_eq, ← shifts_eight lower, ← shifts_xor, UInt16.xor_assoc]

/-- The two bytes can be read off that number. -/
theorem pair_injective {a b c d : UInt8}
    (h : a.toUInt16 <<< 8 ^^^ b.toUInt16 = c.toUInt16 <<< 8 ^^^ d.toUInt16)
    : a = c ∧ b = d := by
  -- The differences of the bytes are equal as numbers, but lie in different halves.
  have apart : (a ^^^ c).toUInt16 <<< 8 = (b ^^^ d).toUInt16 := by
    rw [UInt8.toUInt16_xor, UInt8.toUInt16_xor, UInt16.shiftLeft_xor]
    apply UInt16.xor_eq_zero_iff.mp
    rw [← UInt16.xor_eq_zero_iff] at h
    rw [← h]
    ac_rfl
  have value := congrArg UInt16.toNat apart
  have upper := (a ^^^ c).toNat_lt
  have lower := (b ^^^ d).toNat_lt
  rw [toNat_shiftLeft_eight, UInt8.toNat_toUInt16, UInt8.toNat_toUInt16] at value
  have first : (a ^^^ c).toNat = (0 : UInt8).toNat := by
    rw [UInt8.toNat_zero]
    omega
  have second : (b ^^^ d).toNat = (0 : UInt8).toNat := by
    rw [UInt8.toNat_zero]
    omega
  exact ⟨UInt8.xor_eq_zero_iff.mp (UInt8.toNat_inj.1 first),
    UInt8.xor_eq_zero_iff.mp (UInt8.toNat_inj.1 second)⟩

/-- Two bytes are told apart from any other two by the register after them. -/
theorem step_step_injective {register : UInt16} {a b c d : UInt8}
    (h : step (step register a) b = step (step register c) d)
    : a = c ∧ b = d := by
  rw [step_step, step_step] at h
  exact pair_injective ((UInt16.xor_right_inj _).mp (shifts_injective (shifts_injective h)))

/-- Data of one length of at most two bytes is told apart by the register after it. -/
theorem foldl_step_short {register : UInt16} {first second : Bytes}
    (lengths : first.length = second.length) (short : first.length ≤ 2)
    (h : first.foldl step register = second.foldl step register)
    : first = second := by
  match first, second, lengths with
  | [], [], _ => rfl
  | [a], [c], _ =>
      -- The register after a zero byte more is told apart by both bytes.
      obtain ⟨same, -⟩ := step_step_injective (congrArg (step · 0) h)
      rw [same]
  | [a, b], [c, d], _ =>
      obtain ⟨rfl, rfl⟩ := step_step_injective h
      rfl
  | _ :: _ :: _ :: _, _, _ =>
      simp only [List.length_cons] at short
      omega

/-- Bodies that differ within two neighbouring bytes have different check values. -/
theorem ofBytes_burst_injective {before first second behind : Bytes}
    (lengths : first.length = second.length) (short : first.length ≤ 2)
    (h : ofBytes (before ++ first ++ behind) = ofBytes (before ++ second ++ behind))
    : first = second := by
  simp only [ofBytes, List.foldl_append] at h
  exact foldl_step_short lengths short (foldl_step_injective h)

/-- Replacing one byte of a body by another changes its check value. -/
theorem ofBytes_set_ne {body : Bytes} {place : Nat} {byte : UInt8} (inside : place < body.length)
    (differs : body[place]? ≠ some byte)
    : ofBytes (body.set place byte) ≠ ofBytes body := by
  intro equal
  have around : body = body.take place ++ [body[place]] ++ body.drop (place + 1) := by simp
  have replaced : body.set place byte = body.take place ++ [byte] ++ body.drop (place + 1) := by
    rw [List.set_eq_take_append_cons_drop, if_pos inside, List.append_assoc]
    rfl
  rw [replaced] at equal
  have same : [byte] = [body[place]] :=
    ofBytes_burst_injective rfl (by simp) (equal.trans (congrArg ofBytes around))
  rw [List.getElem?_eq_getElem inside] at differs
  exact differs (congrArg some (List.singleton_inj.mp same).symm)

theorem set_set_append (before behind : Bytes) (a b c d : UInt8)
    : ((before ++ [a, b] ++ behind).set before.length c).set (before.length + 1) d
      = before ++ [c, d] ++ behind := by
  simp

/-- Replacing two neighbouring bytes of a body, one of them by another, changes its check value.
-/
theorem ofBytes_set_set_ne {body : Bytes} {place : Nat} {first second : UInt8}
    (inside : place + 1 < body.length)
    (differs : body[place]? ≠ some first ∨ body[place + 1]? ≠ some second)
    : ofBytes ((body.set place first).set (place + 1) second) ≠ ofBytes body := by
  intro equal
  have front : place < body.length := by omega
  have around : body
      = body.take place ++ [body[place], body[place + 1]] ++ body.drop (place + 2) := by
    simp
  have replaced : (body.set place first).set (place + 1) second
      = body.take place ++ [first, second] ++ body.drop (place + 2) := by
    have length : (body.take place).length = place := List.length_take_of_le (by omega)
    have sets := set_set_append (body.take place) (body.drop (place + 2)) body[place]
      body[place + 1] first second
    rwa [← around, length] at sets
  rw [replaced] at equal
  have same : [first, second] = [body[place], body[place + 1]] :=
    ofBytes_burst_injective rfl (by simp) (equal.trans (congrArg ofBytes around))
  obtain ⟨rfl, rfl⟩ : first = body[place] ∧ second = body[place + 1] := by simpa using same
  rw [List.getElem?_eq_getElem front, List.getElem?_eq_getElem inside] at differs
  simp at differs

end DiscVolume.Crc16
