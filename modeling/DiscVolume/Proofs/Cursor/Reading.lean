import DiscVolume.Proofs.Cursor.Steps

/-! Decoders read what is spelled. A decoder reads a byte string as a value if it finds the value
whatever follows the string, and stops right behind it. Sequences of decoders then read
concatenations.
-/

namespace DiscVolume.Decoder

open Sequencing

/-- A decoder at an offset passes over a byte string, whatever follows, and finds a value. -/
def Reads (decoder : Decoder α) (offset : Nat) (data : Bytes) (value : α) : Prop :=
  ∀ rest, decoder ⟨offset, data ++ rest⟩ = .ok value ⟨offset + data.length, rest⟩

namespace Reads

variable {offset count : Nat} {first second data : Bytes}

theorem pure (value : α) : Reads (pure value) offset [] value := by
  intro rest
  rfl

/-- Two decoders in sequence read two byte strings in sequence. -/
theorem bind {decoder : Decoder α} {others : α → Decoder β} {middle : α} {value : β}
    (head : Reads decoder offset first middle)
    (tail : Reads (others middle) (offset + first.length) second value)
    : Reads (decoder >>= others) offset (first ++ second) value := by
  intro rest
  rw [List.append_assoc, bind_of_ok (head (second ++ rest)), tail rest, List.length_append,
    Nat.add_assoc]

/-- A last step may need no bytes of its own. -/
theorem bind_last {decoder : Decoder α} {others : α → Decoder β} {middle : α} {value : β}
    (head : Reads decoder offset data middle)
    (tail : Reads (others middle) (offset + data.length) [] value)
    : Reads (decoder >>= others) offset data value := by
  have read := head.bind tail
  rwa [List.append_nil] at read

theorem map {decoder : Decoder α} {f : α → β} {middle : α}
    (head : Reads decoder offset data middle)
    : Reads (f <$> decoder) offset data (f middle) := by
  intro rest
  exact map_eq_ok.mpr ⟨middle, head rest, rfl⟩

/-- A step that only looks ahead reads nothing of what the steps after it read. -/
theorem ahead {decoder : Decoder α} {others : α → Decoder β} {middle : α} {value : β}
    (head : ∀ rest, decoder ⟨offset, data ++ rest⟩ = .ok middle ⟨offset, data ++ rest⟩)
    (tail : Reads (others middle) offset data value)
    : Reads (decoder >>= others) offset data value := by
  intro rest
  rw [bind_of_ok (head rest), tail rest]

theorem require {others : Unit → Decoder β} {value : β} (enough : count ≤ data.length)
    (tail : Reads (others ()) offset data value)
    : Reads (Decoder.require count >>= others) offset data value := by
  refine ahead (fun rest => ?_) tail
  apply require_eq_ok
  simp only [Cursor.remaining, List.length_append]
  omega

theorem position {others : Nat → Decoder β} {value : β}
    (tail : Reads (others offset) offset data value)
    : Reads (Decoder.position >>= others) offset data value :=
  ahead (fun _ => rfl) tail

theorem demand {others : Unit → Decoder β} {value : β} {condition : Bool} {cause : Defect}
    (holds : condition = true) (tail : Reads (others ()) offset data value)
    : Reads (Decoder.demand condition cause >>= others) offset data value :=
  ahead (fun _ => demand_of_true holds) tail

theorem settle {outcome : Except Failure α} {value : α} (found : outcome = .ok value)
    : Reads (Decoder.settle outcome) offset [] value := by
  intro rest
  exact settle_eq_ok.mpr ⟨found, rfl⟩

theorem take (data : Bytes) (h : data.length = count)
    : Reads (Decoder.take count) offset data data := by
  intro rest
  subst h
  rw [take_eq_ok (by simp [Cursor.remaining])]
  simp [Cursor.advance]

theorem skip (data : Bytes) (h : data.length = count)
    : Reads (Decoder.skip count) offset data () :=
  (take data h).bind_last (pure ())

/-- A number is read where it is spelled in its width. -/
theorem number {f : Nat → α} {width value : Nat} (bounded : value < 1 <<< (8 * width))
    : Reads (do return f (Bytes.littleEndian (← Decoder.take width))) offset
        (Bytes.ofNat width value) (f value) := by
  have read : Reads (do return f (Bytes.littleEndian (← Decoder.take width))) offset
      (Bytes.ofNat width value) (f (Bytes.littleEndian (Bytes.ofNat width value))) :=
    (take _ (Bytes.length_ofNat width value)).bind_last (pure _)
  rwa [Bytes.littleEndian_ofNat, Nat.mod_eq_of_lt bounded] at read

theorem uint8 (byte : UInt8) : Reads Decoder.uint8 offset (Bytes.ofNat 1 byte.toNat) byte := by
  have bounded : byte.toNat < 1 <<< (8 * 1) := byte.toNat_lt
  have read : Reads _ offset _ _ := number (f := UInt8.ofNat) bounded
  rwa [UInt8.ofNat_toNat] at read

theorem uint16 (value : UInt16)
    : Reads Decoder.uint16 offset (Bytes.ofNat 2 value.toNat) value := by
  have bounded : value.toNat < 1 <<< (8 * 2) := value.toNat_lt
  have read : Reads _ offset _ _ := number (f := UInt16.ofNat) bounded
  rwa [UInt16.ofNat_toNat] at read

theorem uint32 (value : UInt32)
    : Reads Decoder.uint32 offset (Bytes.ofNat 4 value.toNat) value := by
  have bounded : value.toNat < 1 <<< (8 * 4) := value.toNat_lt
  have read : Reads _ offset _ _ := number (f := UInt32.ofNat) bounded
  rwa [UInt32.ofNat_toNat] at read

theorem uint64 (value : UInt64)
    : Reads Decoder.uint64 offset (Bytes.ofNat 8 value.toNat) value := by
  have bounded : value.toNat < 1 <<< (8 * 8) := value.toNat_lt
  have read : Reads _ offset _ _ := number (f := UInt64.ofNat) bounded
  rwa [UInt64.ofNat_toNat] at read

theorem uint48 (value : BitVec 48)
    : Reads Decoder.uint48 offset (Bytes.ofNat 6 value.toNat) value := by
  have bounded : value.toNat < 1 <<< (8 * 6) := value.isLt
  have read : Reads _ offset _ _ := number (f := BitVec.ofNat 48) bounded
  rwa [BitVec.ofNat_toNat, BitVec.setWidth_eq] at read

end Reads

end DiscVolume.Decoder
