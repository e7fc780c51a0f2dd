import DiscVolume.Proofs.Cursor.Slots

/-! Compounds and the single reads that they stand for. A format text names numbers and byte fields
one after the other, with decimal counts. Its compound is read just as these are by themselves, but
whole or not at all. A number of six bytes is one of four and one of two behind it.
-/

namespace DiscVolume

open Cursor Decoder

-----------------------------------------------------------------------------------------
-- Format texts
-----------------------------------------------------------------------------------------

namespace Layout

/-- What a letter of a format stands for. -/
inductive Letter where
  | number (width : Width)
  | bytes
  deriving DecidableEq, Repr

def Letter.character : Letter → Char
  | .number .one => 'B'
  | .number .two => 'H'
  | .number .four => 'L'
  | .number .eight => 'Q'
  | .bytes => 's'

theorem Letter.isDigit_character (letter : Letter) : letter.character.isDigit = false := by
  cases letter with
  | number width => cases width <;> rfl
  | bytes => rfl

/-- A part of a format as it is written: the digits of a count, if it has one, and a letter. -/
structure Part where
  digits : List Char
  letter : Letter
  isDecimal : digits.all Char.isDigit = true

namespace Part

def letters (part : Part) : List Char := part.digits ++ [part.letter.character]

/-- The number that the digits of a part spell. -/
def count? (part : Part) : Option Nat :=
  if part.digits = [] then none else some (Nat.ofDigitChars 10 part.digits 0)

/-- A number repeated as often as the count says, or bytes of which the count is the size. -/
def item (part : Part) : Item :=
  match part.letter with
  | .number width => .numbers (part.count?.getD 1) width
  | .bytes => .field (part.count?.getD 1)

theorem itemOf?_eq (part : Part) : itemOf? part.count? part.letter.character = some part.item := by
  unfold item
  cases part.letter with
  | number width => cases width <;> rfl
  | bytes => rfl

end Part

/-- A format text: the mark of little-endian order and parts. -/
def textOf (parts : List Part) : String := String.ofList ('<' :: parts.flatMap Part.letters)

/-- Digits are added to the count, by induction on the digits. -/
theorem itemsOf?_digits {digits : List Char} (isDecimal : digits.all Char.isDigit = true)
    (count : Option Nat) (others : List Char)
    : itemsOf? count (digits ++ others)
      = itemsOf? (if digits = [] then count
          else some (Nat.ofDigitChars 10 digits (count.getD 0))) others := by
  induction digits generalizing count with
  | nil => rfl
  | cons digit digits ih =>
      rw [List.all_cons, Bool.and_eq_true] at isDecimal
      rw [List.cons_append, itemsOf?, if_pos isDecimal.1, ih isDecimal.2,
        if_neg (List.cons_ne_nil digit digits), Nat.ofDigitChars_cons, Nat.mul_comm 10]
      split
      · next none =>
          rw [none, Nat.ofDigitChars_nil]
      · rfl

/-- A part is read as its item, and its count does not reach the parts behind it. -/
theorem itemsOf?_part (part : Part) (others : List Char)
    : itemsOf? none (part.letters ++ others)
      = (itemsOf? none others).map fun items => part.item :: items := by
  rw [Part.letters, List.append_assoc, itemsOf?_digits part.isDecimal, List.singleton_append,
    itemsOf?, part.letter.isDigit_character]
  change (do
    let item ← itemOf? part.count? part.letter.character
    return item :: (← itemsOf? none others)) = _
  rw [part.itemOf?_eq]
  cases itemsOf? none others <;> rfl

theorem itemsOf?_letters (parts : List Part)
    : itemsOf? none (parts.flatMap Part.letters) = some (parts.map Part.item) := by
  induction parts with
  | nil => rfl
  | cons part others ih =>
      rw [List.flatMap_cons, itemsOf?_part, ih, List.map_cons, Option.map_some]

theorem ofText?_textOf (parts : List Part)
    : ofText? (textOf parts) = some (parts.map Part.item) := by
  rw [ofText?, textOf, String.toList_ofList]
  exact itemsOf?_letters parts

end Layout

-----------------------------------------------------------------------------------------
-- Numbers of six bytes
-----------------------------------------------------------------------------------------

namespace Cursor

/-- A number of six bytes is found where they are left, and is that of the first four and, beyond
them, that of the last two. Where bytes are missing, nothing is passed over.
-/
structure ReadsSixBytes (cursor : Cursor) : Prop where
  there (enough : 6 ≤ cursor.remaining)
    : ∃ value < 2 ^ 48, Bytes.ofNat 6 value = cursor.rest.take 6
      ∧ Request.uint48.run cursor = .ok (.number value) (cursor.advance 6)
      ∧ ∃ low high, Request.uint32.run cursor = .ok (.number low) (cursor.advance 4)
        ∧ Request.uint16.run (cursor.advance 4) = .ok (.number high) (cursor.advance 6)
        ∧ value = low + 2 ^ 32 * high
  cut (short : cursor.remaining < 6)
    : ∃ truncation, Request.uint48.run cursor = .error (.truncated truncation) cursor

theorem readsSixBytes (cursor : Cursor) : ReadsSixBytes cursor where
  there enough := by
    have enoughLow : 4 ≤ cursor.remaining := Nat.le_trans (by decide) enough
    have enoughHigh : 2 ≤ (cursor.advance 4).remaining := by
      rw [remaining_advance]
      omega
    have high : Request.uint16.run (cursor.advance 4) = settle _ _ :=
      Request.fills_run rfl (cursor.advance 4) enoughHigh
    rw [advance_advance] at high
    have length : (cursor.rest.take 6).length = 6 := List.length_take_of_le enough
    have lengthLow : (cursor.rest.take 4).length = 4 := List.length_take_of_le enoughLow
    have sum : Bytes.littleEndian (cursor.rest.take 6)
        = Bytes.littleEndian (cursor.rest.take 4)
          + 2 ^ 32 * Bytes.littleEndian ((cursor.advance 4).rest.take 2) := by
      rw [show 6 = 4 + 2 from rfl, List.take_add, Bytes.littleEndian_append, lengthLow]
      rfl
    have spelled := Bytes.ofNat_littleEndian (cursor.rest.take 6)
    rw [length] at spelled
    exact ⟨_, Bytes.littleEndian_take_lt cursor.rest 6, spelled,
      Request.fills_run rfl cursor enough, _, _, Request.fills_run rfl cursor enoughLow, high, sum⟩
  cut short := ⟨_, Request.wants_run rfl (fun _ => Request.noConfusion) cursor short⟩

end Cursor

-----------------------------------------------------------------------------------------
-- Compounds
-----------------------------------------------------------------------------------------

namespace Layout

/-- A compound is answered just if all reads of its values by themselves are, one after the other.
Then it has the same values and stops at the same place. Otherwise it stays.
-/
structure ReadsSingly (layout : Layout) (cursor : Cursor) : Prop where
  answered_iff
    : (∃ reply next, (Request.compound layout).run cursor = .ok reply next)
      ↔ ∃ replies next, layout.requests.mapM Request.run cursor = .ok replies next
  eq_ok_iff {reply : Reply} {next : Cursor}
    : (Request.compound layout).run cursor = .ok reply next
      ↔ ∃ values, reply = .fields values
        ∧ layout.requests.mapM Request.run cursor = .ok (values.map FieldValue.reply) next
  stays {failure : Failure} {next : Cursor}
    (failed : (Request.compound layout).run cursor = .error failure next)
    : next = cursor

theorem readsSingly {cursor : Cursor} (layout : Layout) (held : cursor.size ≤ sizeLimit)
    : layout.ReadsSingly cursor where
  eq_ok_iff := run_compound_eq_ok_iff held
  answered_iff := by
    constructor
    · rintro ⟨reply, next, answered⟩
      obtain ⟨values, -, singly⟩ := (run_compound_eq_ok_iff held).mp answered
      exact ⟨_, next, singly⟩
    · rintro ⟨replies, next, singly⟩
      obtain ⟨values, rfl⟩ := exists_of_mapM_run singly
      exact ⟨_, next, (run_compound_eq_ok_iff held).mpr ⟨values, rfl, singly⟩⟩
  stays failed := by
    rw [Request.run, bind_pure_comp] at failed
    have failed := Sequencing.error_of_map failed
    rw [decode_eq_format] at failed
    exact Format.place_of_error failed

/-- Every format text stands for a compound. In a buffer, which is no longer than a compound can be,
it is read as its numbers and byte fields are, one after the other. Values in its range are packed,
and are read from what they are packed in, wherever that stands. Numbers of six bytes, which no format
has, are read as one of four bytes and one of two.
-/
theorem text_readsSingly (parts : List Part)
    : let layout : Layout := parts.map Part.item
      ofText? (textOf parts) = some layout
      ∧ (∀ cursor : Cursor, cursor.size ≤ sizeLimit → layout.ReadsSingly cursor)
      ∧ (∀ values, layout.size ≤ sizeLimit → List.Forall₂ Slot.InRange layout.slots values
        → ∃ data, layout.pack values = some data
          ∧ ∀ offset, Reads (Request.compound layout).run offset data (.fields values))
      ∧ ∀ cursor : Cursor, cursor.ReadsSixBytes := by
  refine ⟨ofText?_textOf parts, fun cursor held => readsSingly _ held, ?_, readsSixBytes⟩
  exact fun values fits inRange => exists_pack_reads fits inRange

/-- Two numbers of one byte, one of two bytes and a field of three bytes. -/
def mixedParts : List Part :=
  [⟨['2'], .number .one, rfl⟩, ⟨[], .number .two, rfl⟩, ⟨['3'], .bytes, rfl⟩]

/-- The place behind the first of nine bytes. -/
def mixedPlace : Cursor := (ofBytes [9, 1, 2, 3, 4, 65, 66, 67, 5]).advance 1

/-- Seven bytes are read as four values, at once and one after the other, and the values are packed
in these bytes.
-/
theorem text_readsSingly_mixed
    : let layout : Layout := [.numbers 2 .one, .numbers 1 .two, .field 3]
      let values : List FieldValue := [.number 1, .number 2, .number 1027, .bytes [65, 66, 67]]
      mixedPlace.size ≤ sizeLimit ∧ layout.size ≤ sizeLimit
      ∧ List.Forall₂ Slot.InRange layout.slots values
      ∧ ofText? "<2BH3s" = some layout
      ∧ layout.requests = [.uint8, .uint8, .uint16, .bytes 3]
      ∧ layout.requests.mapM Request.run mixedPlace
        = .ok [.number 1, .number 2, .number 1027, .bytes [65, 66, 67]] (mixedPlace.advance 7)
      ∧ (Request.compound layout).run mixedPlace
        = .ok (.fields values) (mixedPlace.advance 7)
      ∧ layout.pack values = some [1, 2, 3, 4, 65, 66, 67]
      ∧ (∀ offset, Reads (Request.compound layout).run offset [1, 2, 3, 4, 65, 66, 67]
        (.fields values))
      ∧ Request.uint48.run mixedPlace = .ok (.number 0x424104030201) (mixedPlace.advance 6) := by
  intro layout values
  have held : mixedPlace.size ≤ sizeLimit := by decide
  have fits : layout.size ≤ sizeLimit := by decide
  have inRange : List.Forall₂ Slot.InRange layout.slots values :=
    .cons (by decide) (.cons (by decide) (.cons (by decide) (.cons rfl .nil)))
  obtain ⟨isText, singly, packing, -⟩ := text_readsSingly mixedParts
  have answered : layout.requests.mapM Request.run mixedPlace
      = .ok (values.map FieldValue.reply) (mixedPlace.advance 7) := by rfl
  obtain ⟨data, packed, reads⟩ := packing values fits inRange
  have same : layout.pack values = some [1, 2, 3, 4, 65, 66, 67] := by decide
  obtain rfl := Option.some.inj (packed.symm.trans same)
  exact ⟨held, fits, inRange, isText, rfl, answered,
    (singly mixedPlace held).eq_ok_iff.mpr ⟨values, rfl, answered⟩, same, reads, rfl⟩

end Layout

end DiscVolume
