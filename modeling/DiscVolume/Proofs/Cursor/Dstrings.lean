import DiscVolume.Proofs.Cursor.Characters

/-! Dstrings. A field is passed over as a whole, whatever is in it, and its last byte decides how much
of it is read: the compression identifier and the text. What stands between the text and the last
byte does not matter.
-/

namespace DiscVolume.Decoder

open Sequencing

/-- The text of a field, of which a number of bytes is recorded. -/
def dstringText (field : Bytes) (length : Nat) : Except Failure String :=
  if length = 0 then .ok ""
  else if field.length - 1 < length then .error (.malformed (.dstringLength length field.length))
  else if field.headD 0 = singleByte then .ok (Bytes.latin1 ((field.take length).drop 1))
  else .error (.malformed (.dstringCompression (field.headD 0)))

/-- A field that is there is passed over, and its text is that of as many bytes as its last byte
says.
-/
theorem dstring_spelled (offset : Nat) {field : Bytes} {length : Nat}
    (isLast : field.getLast?.map UInt8.toNat = some length) (rest : Bytes)
    : dstring field.length ⟨offset, field ++ rest⟩
      = settle (dstringText field length) ⟨offset + field.length, rest⟩ := by
  obtain ⟨byte, isByte, rfl⟩ := Option.map_eq_some_iff.mp isLast
  refine (bind_of_ok (Reads.take field rfl rest)).trans ?_
  rw [isByte, Option.getD_some, dstringText]
  by_cases empty : byte.toNat = 0
  · rw [if_pos empty, if_pos empty]
    rfl
  rw [if_neg empty, if_neg empty]
  by_cases long : field.length - 1 < byte.toNat
  · rw [if_pos long]
    exact bind_of_error (demand_of_false (decide_eq_false (by omega)))
  rw [if_neg long]
  refine (bind_of_ok (demand_of_true (decide_eq_true (by omega)))).trans ?_
  by_cases single : field.headD 0 = singleByte
  · rw [if_pos single]
    exact bind_of_ok (demand_of_true (decide_eq_true single))
  · rw [if_neg single]
    exact bind_of_error (demand_of_false (decide_eq_false single))

/-- Text has the numbers of the bytes that are recorded behind the compression identifier. -/
theorem numbers_of_dstringText {field : Bytes} {length : Nat} {text : String}
    (found : dstringText field length = .ok text)
    : text.toList.map Char.toNat = ((field.take length).drop 1).map UInt8.toNat := by
  unfold dstringText at found
  split at found
  · next empty =>
      cases found
      rw [empty]
      rfl
  · split at found
    · cases found
    · split at found
      · cases found
        exact numbers_latin1 _
      · cases found

/-- A field has a text if nothing is recorded in it, or else single bytes in front of the last. -/
theorem dstringText_isOk_iff {field : Bytes} {length : Nat}
    (isLast : field.getLast?.map UInt8.toNat = some length)
    : (∃ text, dstringText field length = .ok text)
      ↔ length = 0 ∨ length ≤ field.length - 1 ∧ field.head? = some singleByte := by
  have first : field.head? = some singleByte ↔ field.headD 0 = singleByte := by
    cases field with
    | nil => cases isLast
    | cons byte others => simp
  rw [first, dstringText]
  split
  · next empty => exact ⟨fun _ => .inl empty, fun _ => ⟨"", rfl⟩⟩
  · next recorded =>
      split
      · next long =>
          constructor
          · rintro ⟨_, found⟩
            cases found
          · rintro (empty | ⟨fits, -⟩)
            · exact absurd empty recorded
            · omega
      · next fits =>
          split
          · next single => exact ⟨fun _ => .inr ⟨Nat.not_lt.mp fits, single⟩, fun _ => ⟨_, rfl⟩⟩
          · next other =>
              constructor
              · rintro ⟨_, found⟩
                cases found
              · rintro (empty | ⟨-, single⟩)
                · exact absurd empty recorded
                · exact absurd single other

/-- A field without a text is malformed. -/
theorem dstringText_eq_error {field : Bytes} {length : Nat} {failure : Failure}
    (failed : dstringText field length = .error failure)
    : failure = .malformed (if field.length - 1 < length then .dstringLength length field.length
        else .dstringCompression (field.headD 0)) := by
  unfold dstringText at failed
  split at failed
  · cases failed
  · split at failed
    · next long =>
        rw [if_pos long]
        cases failed
        rfl
    · next fits =>
        rw [if_neg fits]
        split at failed <;> cases failed
        rfl

/-- A text is read where its compression identifier, its characters and, in the last byte of the
field, the number of both stand.
-/
theorem reads_dstring (offset : Nat) {text : String} (plain : Bytes.IsLatin1 text)
    (short : text.length ≤ 254) (filler : Bytes)
    : Reads (dstring (text.length + filler.length + 2)) offset
        ((singleByte :: Bytes.ofText text) ++ (filler ++ [.ofNat (text.length + 1)])) text := by
  intro rest
  generalize isField : (singleByte :: Bytes.ofText text) ++ (filler ++ [.ofNat (text.length + 1)])
    = field
  have size : field.length = text.length + filler.length + 2 := by
    rw [← isField]
    simp only [List.length_append, List.length_cons, List.length_nil, Bytes.length_ofText]
    omega
  have isLast : field.getLast?.map UInt8.toNat = some (text.length + 1) := by
    rw [← isField, ← List.append_assoc, List.getLast?_concat, Option.map_some, UInt8.toNat_ofNat',
      Nat.mod_eq_of_lt (by omega)]
  have found : dstringText field (text.length + 1) = .ok text := by
    have start : (singleByte :: Bytes.ofText text).length = text.length + 1 := by
      rw [List.length_cons, Bytes.length_ofText]
    have first : field.headD 0 = singleByte := isField ▸ rfl
    rw [dstringText, if_neg (by omega), if_neg (by omega), if_pos first, ← isField, ← start,
      List.take_left, List.drop_one, List.tail_cons, Bytes.latin1_ofText plain]
  rw [← size, dstring_spelled offset isLast, found]
  rfl

/-- A field is read just if its last byte is zero, or else counts no more than the bytes in front of
it, of which the first is the compression identifier of single bytes. Then it is read as the bytes
that are counted, without the identifier. Otherwise it is malformed, for its length or for the
identifier. In either case it is passed over.
-/
theorem dstring_exact (offset : Nat) {field : Bytes} {length : Nat}
    (isLast : field.getLast?.map UInt8.toNat = some length) (rest : Bytes)
    : let start : Cursor := ⟨offset, field ++ rest⟩
      let last : Cursor := ⟨offset + field.length, rest⟩
      ((∃ text next, dstring field.length start = .ok text next)
        ↔ length = 0 ∨ length ≤ field.length - 1 ∧ field.head? = some singleByte)
      ∧ (∀ text next, dstring field.length start = .ok text next → next = last
        ∧ text.toList.map Char.toNat = ((field.take length).drop 1).map UInt8.toNat)
      ∧ (∀ failure next, dstring field.length start = .error failure next → next = last
        ∧ failure = .malformed (if field.length - 1 < length then .dstringLength length field.length
            else .dstringCompression (field.headD 0)))
      ∧ ∀ (text : String) (filler : Bytes), Bytes.IsLatin1 text → text.length ≤ 254
        → Reads (dstring (text.length + filler.length + 2)) offset
            ((singleByte :: Bytes.ofText text) ++ (filler ++ [.ofNat (text.length + 1)])) text := by
  intro start last
  have spelled : dstring field.length start = settle (dstringText field length) last :=
    dstring_spelled offset isLast rest
  refine ⟨?_, ?_, ?_, ?_⟩
  · rw [spelled, ← dstringText_isOk_iff isLast]
    constructor
    · rintro ⟨text, next, settled⟩
      exact ⟨text, (settle_eq_ok.mp settled).1⟩
    · rintro ⟨text, found⟩
      exact ⟨text, last, settle_eq_ok.mpr ⟨found, rfl⟩⟩
  · intro text next read
    obtain ⟨found, isBehind⟩ := settle_eq_ok.mp (spelled ▸ read)
    exact ⟨isBehind, numbers_of_dstringText found⟩
  · intro failure next read
    obtain ⟨failed, isBehind⟩ := settle_eq_error.mp (spelled ▸ read)
    exact ⟨isBehind, dstringText_eq_error failed⟩
  · intro text filler plain short
    exact reads_dstring offset plain short filler

/-- One letter in a field of six bytes, and other bytes between it and the last. -/
theorem dstring_exact_oneLetter
    : Option.map UInt8.toNat ([8, 65, 9, 7, 7, 2] : Bytes).getLast? = some 2
      ∧ ∃ text next, dstring 6 ⟨3, [8, 65, 9, 7, 7, 2, 5]⟩ = .ok text next
        ∧ next = ⟨9, [5]⟩ ∧ text.toList.map Char.toNat = [65] := by
  have isLast : Option.map UInt8.toNat ([8, 65, 9, 7, 7, 2] : Bytes).getLast? = some 2 := by decide
  obtain ⟨isRead, whole, -, -⟩ := dstring_exact 3 isLast [5]
  obtain ⟨text, next, read⟩ := isRead.mpr (.inr (by decide))
  exact ⟨isLast, text, next, read, whole text next read⟩

end DiscVolume.Decoder
