import DiscVolume.Bytes

/-! Single-byte text. A text of characters below 256 and the bytes that stand for its characters
are two forms of one thing.
-/

namespace DiscVolume.Bytes

/-- The single bytes that stand for the characters of a text. -/
def ofText (text : String) : Bytes := text.toList.map fun character => UInt8.ofNat character.toNat

/-- Every character of a text is one that a single byte stands for. -/
def IsLatin1 (text : String) : Prop := ∀ character ∈ text.toList, character.toNat < 256

instance (text : String) : Decidable (IsLatin1 text) :=
  inferInstanceAs (Decidable (∀ character ∈ text.toList, character.toNat < 256))

@[simp]
theorem length_ofText (text : String) : (ofText text).length = text.length := by
  rw [ofText, List.length_map, String.length_toList]

/-- The bytes of a text read back as the text. -/
theorem latin1_ofText {text : String} (plain : IsLatin1 text) : latin1 (ofText text) = text := by
  have kept : text.toList.map ((fun byte => Char.ofNat byte.toNat)
      ∘ fun character => UInt8.ofNat character.toNat) = text.toList := by
    rw [List.map_congr_left (g := id), List.map_id]
    intro character found
    rw [Function.comp_apply, UInt8.toNat_ofNat', Nat.mod_eq_of_lt (plain character found),
      Char.ofNat_toNat, id]
  rw [latin1, ofText, List.map_map, kept, String.ofList_toList]

/-- Single-byte texts are the same only if their bytes are. -/
theorem latin1_injective {first second : Bytes} (h : latin1 first = latin1 second)
    : first = second := by
  have narrow (byte : UInt8) : (Char.ofNat byte.toNat).toNat = byte.toNat := by
    have valid : byte.toNat.isValidChar := .inl (Nat.lt_trans byte.toNat_lt (by decide))
    rw [Char.ofNat, dif_pos valid]
    rfl
  refine (List.map_inj_right (fun a b same => ?_)).mp (String.ofList_injective h)
  have numbers := congrArg Char.toNat same
  rw [narrow, narrow] at numbers
  exact UInt8.toNat_inj.mp numbers

/-- A text of plain characters is the single-byte text of just its own bytes. -/
theorem latin1_eq_iff {bytes : Bytes} {text : String} (plain : latin1 (ofText text) = text)
    : latin1 bytes = text ↔ bytes = ofText text := by
  constructor
  · intro same
    exact latin1_injective (same.trans plain.symm)
  · rintro rfl
    exact plain

end DiscVolume.Bytes
