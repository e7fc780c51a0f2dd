import DiscVolume.Proofs.Cursor.Reading
import DiscVolume.Proofs.Cursor.Text
import DiscVolume.Proofs.Text.Utf16

/-! Fields of d-characters. A field is passed over as a whole, whatever is in it. In two-byte units
it is read just if it encodes text, and otherwise the failure names the place up to which it does.
-/

namespace DiscVolume.Decoder

open Sequencing Text

/-- A field that is there is passed over, and its text is that of the bytes behind the first. -/
theorem dcharacters_spelled (offset : Nat) (compression : UInt8) (data rest : Bytes)
    : dcharacters (1 + data.length) ⟨offset, compression :: (data ++ rest)⟩
      = settle (dcharactersText compression data) ⟨offset + (1 + data.length), rest⟩ := by
  have one : [compression] = Bytes.ofNat 1 compression.toNat := by simp [Bytes.ofNat]
  have first : uint8 ⟨offset, [compression] ++ (data ++ rest)⟩
      = .ok compression ⟨offset + 1, data ++ rest⟩ := by
    rw [one]
    exact Reads.uint8 compression _
  have second : take data.length ⟨offset + 1, data ++ rest⟩
      = .ok data ⟨offset + (1 + data.length), rest⟩ := by
    rw [Reads.take data rfl rest, Nat.add_assoc]
  rw [dcharacters, if_neg (by omega), ← List.singleton_append, bind_of_ok first,
    Nat.add_sub_cancel_left, bind_of_ok second]

/-- D-characters without a text are malformed. -/
theorem dcharactersText_eq_error {compression : UInt8} {data : Bytes} {failure : Failure}
    (failed : dcharactersText compression data = .error failure)
    : ∃ fault, failure = .malformed fault := by
  rw [dcharactersText] at failed
  by_cases single : compression = singleByte
  · rw [if_pos single] at failed
    cases failed
  · rw [if_neg single] at failed
    by_cases double : compression = doubleByte
    · rw [if_pos double] at failed
      cases decoded : Text.Utf16.decode data with
      | ok characters =>
          rw [decoded] at failed
          cases failed
      | error fault =>
          rw [decoded] at failed
          cases failed
          exact ⟨_, rfl⟩
    · rw [if_neg double] at failed
      cases failed
      exact ⟨_, rfl⟩

/-- The characters of single-byte text have the numbers of its bytes. -/
theorem numbers_latin1 (data : Bytes)
    : (Bytes.latin1 data).toList.map Char.toNat = data.map UInt8.toNat := by
  rw [Bytes.latin1, String.toList_ofList, List.map_map]
  refine List.map_congr_left fun byte _ => ?_
  exact Utf16.toNat_ofNat (.inl (Nat.lt_trans byte.toNat_lt (by decide)))

/-- The message about an undecodable field names a position. -/
def Locates (defect : Defect) (position : Nat) : Prop :=
  ∃ subject last reason, defect.message
      = "undecodable file identifier: 'utf-16-be' codec can't decode " ++ subject ++ " in position "
        ++ toString position ++ last ++ ": " ++ reason
    ∧ (last = "" ∨ ∃ stop : Nat, last = "-" ++ toString stop)

theorem locates_fault (fault : Utf16.Fault) : Locates (.identifierText fault) fault.position := by
  have literal : "undecodable file identifier: 'utf-16-be' codec can't decode "
      = "undecodable file identifier: " ++ "'utf-16-be' codec can't decode " := by decide
  obtain ⟨subject, last, reason, message, ending⟩ := fault.message_position
  refine ⟨subject, last, reason, ?_, ending⟩
  change "undecodable file identifier: " ++ fault.message = _
  rw [message, literal]
  simp only [String.append_assoc]

/-- A field in two-byte units is read just if they encode a text, and as that text. Otherwise it
fails where the longest text that it starts with ends. Single bytes are always read, and nothing
else is.
-/
theorem dcharacters_exact (offset : Nat) (compression : UInt8) (data rest : Bytes)
    : let start : Cursor := ⟨offset, compression :: (data ++ rest)⟩
      let last : Cursor := ⟨offset + (1 + data.length), rest⟩
      dcharacters 0 start = .ok "" start
      ∧ (compression = doubleByte
        → (∀ text next, dcharacters (1 + data.length) start = .ok text next
            ↔ data = Utf16.encode text.toList ∧ next = last)
          ∧ ((∀ text : String, data ≠ Utf16.encode text.toList)
            → ∃ fault, dcharacters (1 + data.length) start
                = .error (.malformed (.identifierText fault)) last
              ∧ Utf16.EndsText data fault.position
              ∧ Locates (.identifierText fault) fault.position))
      ∧ (compression = singleByte
        → ∃ text, dcharacters (1 + data.length) start = .ok text last
          ∧ text.toList.map Char.toNat = data.map UInt8.toNat)
      ∧ (compression ≠ doubleByte → compression ≠ singleByte
        → dcharacters (1 + data.length) start
          = .error (.malformed (.identifierEncoding compression)) last) := by
  intro start last
  have spelled := dcharacters_spelled offset compression data rest
  refine ⟨rfl, ?_, ?_, ?_⟩
  · rintro rfl
    rw [dcharactersText, if_neg (by decide), if_pos rfl] at spelled
    cases decoded : Utf16.decode data with
    | ok characters =>
        rw [decoded] at spelled
        have encoded := Utf16.decode_eq_ok_iff.mp decoded
        refine ⟨fun text next => ?_, fun noText => ?_⟩
        · rw [spelled, settle_eq_ok, ← Utf16.decode_eq_ok_iff, decoded, Except.ok.injEq,
            Except.ok.injEq]
          refine and_congr ⟨?_, ?_⟩ Iff.rfl
          · rintro rfl
            exact String.toList_ofList.symm
          · rintro rfl
            exact String.ofList_toList
        · have otherText := noText (String.ofList characters)
          rw [String.toList_ofList] at otherText
          exact absurd encoded otherText
    | error fault =>
        rw [decoded] at spelled
        refine ⟨fun text next => ?_, fun _ => ?_⟩
        · rw [spelled, settle_eq_ok, ← Utf16.decode_eq_ok_iff, decoded]
          simp
        · exact ⟨fault, spelled, Utf16.endsText_of_decode decoded, locates_fault fault⟩
  · rintro rfl
    exact ⟨Bytes.latin1 data, spelled, numbers_latin1 data⟩
  · intro notDouble notSingle
    rw [spelled, dcharactersText, if_neg notSingle, if_neg notDouble]
    rfl

end DiscVolume.Decoder
