import DiscVolume.Layout
import DiscVolume.Proofs.Cursor.Steps

/-! Fields as a whole. Where all bytes of a field are there, they are passed over, and what is found
is a function of them. Where they are not, nothing is. A format has a size and says what so many
bytes stand for, and a layout is a format.
-/

namespace DiscVolume

namespace Decoder

open Sequencing

/-- Where a field is there, a decoder passes over it and comes to what its bytes say. -/
def Fills (decoder : Decoder α) (size : Nat) (outcome : Bytes → Except Failure α) : Prop :=
  ∀ cursor : Cursor, size ≤ cursor.remaining
    → decoder cursor = settle (outcome (cursor.rest.take size)) (cursor.advance size)

/-- Where a field is not all there, a decoder fails for want of it and stays. -/
def Wants (decoder : Decoder α) (size : Nat) : Prop :=
  ∀ cursor : Cursor, cursor.remaining < size
    → decoder cursor = .error (.truncated (.buffer size cursor.offset cursor.size)) cursor

/-- Whatever comes of it, a decoder stays where it is. -/
def Stays (decoder : Decoder α) : Prop :=
  ∀ cursor, ∃ outcome, decoder cursor = settle outcome cursor

theorem Stays.map {decoder : Decoder α} (stays : Stays decoder) (f : α → β)
    : Stays (do return f (← decoder)) := by
  intro cursor
  obtain ⟨outcome, settled⟩ := stays cursor
  cases outcome with
  | ok value => exact ⟨.ok (f value), bind_of_ok settled⟩
  | error failure => exact ⟨.error failure, bind_of_error settled⟩

theorem stays_peekUInt16 : Stays peekUInt16 := by
  intro cursor
  unfold peekUInt16
  split
  · exact ⟨.ok _, rfl⟩
  · exact ⟨.error _, rfl⟩

theorem stays_peek (count : Nat) : Stays (peek count) := by
  intro cursor
  unfold peek
  split
  · exact ⟨.ok _, rfl⟩
  · exact ⟨.error _, rfl⟩

variable {size : Nat}

theorem fills_take (size : Nat) : Fills (take size) size .ok := fun _ enough => take_eq_ok enough

theorem not_covers {cursor : Cursor} (short : cursor.remaining < size)
    : ¬Bytes.covers size cursor.rest :=
  fun covers => Nat.not_le.mpr short (Bytes.covers_iff.mp covers)

theorem wants_take (size : Nat) : Wants (take size) size := fun _ short => if_neg (not_covers short)

theorem wants_require (size : Nat) : Wants (require size) size :=
  fun _ short => if_neg (not_covers short)

/-- What follows the first step does not matter where the first step wants bytes. -/
theorem Wants.bind {first : Decoder α} (wants : Wants first size) (others : α → Decoder β)
    : Wants (first >>= others) size :=
  fun cursor short => bind_of_error (wants cursor short)

/-- A decoder that succeeds only where a number of bytes is left. -/
def Needs (decoder : Decoder α) (size : Nat) : Prop :=
  ∀ cursor value next, decoder cursor = .ok value next → size ≤ cursor.remaining

theorem Wants.needs {decoder : Decoder α} (wants : Wants decoder size) : Needs decoder size := by
  intro cursor value next found
  refine Nat.le_of_not_lt fun short => ?_
  rw [wants cursor short] at found
  cases found

theorem Needs.map {decoder : Decoder α} (needs : Needs decoder size) (f : α → β)
    : Needs (do return f (← decoder)) size := by
  intro cursor value next found
  obtain ⟨inner, place, foundInner, -⟩ := bind_ok_iff.mp found
  exact needs cursor inner place foundInner

/-- Behind a field that is passed over, as much less is left for the others. -/
theorem Needs.bind {first : Decoder α} {others : α → Decoder β} {count : Nat} {f : Bytes → α}
    (fills : Fills first size fun field => .ok (f field)) (needs : Needs first size)
    (needsOthers : ∀ value, Needs (others value) count)
    : Needs (first >>= others) (size + count) := by
  intro cursor value next found
  obtain ⟨middle, place, foundFirst, foundOthers⟩ := bind_ok_iff.mp found
  have enough := needs cursor middle place foundFirst
  have moved : EStateM.Result.ok _ _ = EStateM.Result.ok middle place :=
    (fills cursor enough).symm.trans foundFirst
  cases moved
  have enoughBehind := needsOthers _ _ _ _ foundOthers
  rw [Cursor.remaining_advance] at enoughBehind
  omega

namespace Fills

variable {outcome : Bytes → Except Failure α}

/-- Only fields of the size of a field matter. -/
theorem congr {decoder : Decoder α} {other : Bytes → Except Failure α}
    (fills : Fills decoder size outcome)
    (same : ∀ field, field.length = size → outcome field = other field)
    : Fills decoder size other := by
  intro cursor enough
  rw [fills cursor enough, same _ (List.length_take_of_le enough)]

theorem pure (value : α) : Fills (Pure.pure value) 0 fun _ => .ok value := fun _ _ => rfl

/-- A function of what is found is found where the field is. -/
theorem map {decoder : Decoder α} (fills : Fills decoder size outcome) (f : α → β)
    : Fills (do return f (← decoder)) size fun field => f <$> outcome field := by
  intro cursor enough
  have read := fills cursor enough
  change _ = settle (f <$> outcome (cursor.rest.take size)) _
  cases found : outcome (cursor.rest.take size) with
  | ok value =>
      rw [found] at read
      exact bind_of_ok read
  | error failure =>
      rw [found] at read
      exact bind_of_error read

/-- Two fields that are always found, one after the other, are a field. -/
theorem bind {first : Decoder α} {others : α → Decoder β} {count : Nat} {f : Bytes → α}
    {g : α → Bytes → β} (head : Fills first size fun field => .ok (f field))
    (tail : ∀ value, Fills (others value) count fun field => .ok (g value field))
    : Fills (first >>= others) (size + count) fun field =>
        .ok (g (f (field.take size)) (field.drop size)) := by
  intro cursor enough
  have enoughTail : count ≤ (cursor.advance size).remaining := by
    rw [Cursor.remaining_advance]
    omega
  have front : (cursor.rest.take (size + count)).take size = cursor.rest.take size := by
    rw [List.take_take, Nat.min_eq_left (Nat.le_add_right ..)]
  have back : (cursor.rest.take (size + count)).drop size
      = (cursor.advance size).rest.take count := by
    rw [List.drop_take, Nat.add_sub_cancel_left, Cursor.rest_advance]
  refine (bind_of_ok (head cursor (by omega))).trans ?_
  rw [tail _ _ enoughTail, Cursor.advance_advance]
  simp only [front, back]

/-- To ask for all bytes in advance changes nothing where they are there. -/
theorem require {others : Unit → Decoder α} (fills : Fills (others ()) size outcome)
    : Fills (Decoder.require size >>= others) size outcome :=
  fun cursor enough => (bind_of_ok (require_eq_ok enough)).trans (fills cursor enough)

end Fills

/-- A field is all that a decoder is about, if the decoder passes over it or fails for want of it. -/
theorem eq_of_fills {decoder other : Decoder α} {outcome : Bytes → Except Failure α}
    (fills : Fills decoder size outcome) (wants : Wants decoder size)
    (fillsOther : Fills other size outcome) (wantsOther : Wants other size)
    : decoder = other := by
  funext cursor
  by_cases enough : size ≤ cursor.remaining
  · rw [fills cursor enough, fillsOther cursor enough]
  · have short := Nat.lt_of_not_le enough
    rw [wants cursor short, wantsOther cursor short]

end Decoder

open Decoder

-----------------------------------------------------------------------------------------
-- Formats
-----------------------------------------------------------------------------------------

/-- What a compound is read by: a number of bytes, unless there is something wrong with the format
itself, and what so many bytes stand for.
-/
structure Format (α : Type) where
  size : Except Failure Nat
  values : Bytes → α

namespace Format

/-- The values of a compound whose bytes are all there. -/
def decode (format : Format α) : Decoder α := do
  let size ← settle format.size
  return format.values (← take size)

variable {format : Format α}

theorem size_eq_ok {size : Nat} (sized : format.size.toOption = some size)
    : format.size = .ok size := by
  cases found : format.size with
  | ok own =>
      rw [found] at sized
      cases sized
      rfl
  | error failure =>
      rw [found] at sized
      cases sized

theorem exists_of_unsized (unsized : format.size.toOption = none)
    : ∃ failure, format.size = .error failure := by
  cases found : format.size with
  | ok size =>
      rw [found] at unsized
      cases unsized
  | error failure => exact ⟨failure, rfl⟩

theorem fills_decode {size : Nat} (sized : format.size = .ok size)
    : Fills format.decode size fun field => .ok (format.values field) := by
  rw [decode, sized]
  exact (fills_take size).map format.values

theorem wants_decode {size : Nat} (sized : format.size = .ok size)
    : Wants format.decode size := by
  rw [decode, sized]
  exact (wants_take size).bind _

/-- Where the format is wrong, nothing is read. -/
theorem decode_eq_error {failure : Failure} (wrong : format.size = .error failure)
    (cursor : Cursor)
    : format.decode cursor = .error failure cursor := by
  rw [decode, wrong]
  rfl

/-- A compound that is not read leaves the cursor in place. -/
theorem place_of_error {cursor next : Cursor} {failure : Failure}
    (failed : format.decode cursor = .error failure next)
    : next = cursor := by
  cases sized : format.size with
  | error own =>
      rw [decode_eq_error sized] at failed
      cases failed
      rfl
  | ok size =>
      by_cases enough : size ≤ cursor.remaining
      · rw [fills_decode sized cursor enough] at failed
        cases failed
      · rw [wants_decode sized cursor (Nat.lt_of_not_le enough)] at failed
        cases failed
        rfl

end Format

namespace Layout

/-- The numbers of one width that bytes spell, one after the other. -/
def numbers (width : Width) : Nat → Bytes → List FieldValue
  | 0, _ => []
  | count + 1, bytes =>
      .number (Bytes.littleEndian (bytes.take width.bytes))
        :: numbers width count (bytes.drop width.bytes)

/-- What the bytes of an item stand for. -/
def Item.values : Item → Bytes → List FieldValue
  | .numbers count width, bytes => Layout.numbers width count bytes
  | .field _, bytes => [.bytes bytes]

/-- What the bytes of a compound stand for, item by item. -/
def values : Layout → Bytes → List FieldValue
  | [], _ => []
  | item :: others, bytes =>
      item.values (bytes.take item.size) ++ values others (bytes.drop item.size)

theorem fills_times (width : Width) (count : Nat)
    : Fills (times (number width) count) (count * width.bytes) fun field =>
        .ok (numbers width count field) := by
  induction count with
  | zero =>
      rw [Nat.zero_mul]
      exact Fills.pure []
  | succ count ih =>
      have first : Fills (number width) width.bytes fun field =>
          .ok (.number (Bytes.littleEndian field)) := (fills_take _).map _
      have all := first.bind fun value => ih.map fun others => value :: others
      rwa [Nat.add_comm, ← Nat.succ_mul] at all

theorem fills_item (item : Item)
    : Fills item.decode item.size fun field => .ok (item.values field) := by
  cases item with
  | numbers count width => exact fills_times width count
  | field size => exact (fills_take size).map fun bytes => [FieldValue.bytes bytes]

/-- Items that are there are passed over, by induction on the items. -/
theorem fills_items (layout : Layout)
    : Fills layout.decodeItems layout.size fun field => .ok (layout.values field) := by
  induction layout with
  | nil => exact Fills.pure []
  | cons item others ih =>
      exact (fills_item item).bind fun first => ih.map fun more => first ++ more

/-- The format that a layout is. -/
def format (layout : Layout) : Format (List FieldValue) where
  size := if sizeLimit < layout.size then .error (.layout .tooLong) else .ok layout.size
  values := layout.values

/-- To read a layout item by item, once all its bytes are known to be there, is to read a format. -/
theorem decode_eq_format (layout : Layout) : layout.decode = layout.format.decode := by
  funext cursor
  rw [decode]
  split
  · next long => exact (Format.decode_eq_error (if_pos long) cursor).symm
  · next fits =>
      have sized : layout.format.size = .ok layout.size := if_neg fits
      have fills : Fills (do Decoder.require layout.size; layout.decodeItems) layout.size
          fun field => .ok (layout.values field) := Fills.require (fills_items layout)
      by_cases enough : layout.size ≤ cursor.remaining
      · rw [Format.fills_decode sized cursor enough]
        exact fills cursor enough
      · rw [Format.wants_decode sized cursor (Nat.lt_of_not_le enough)]
        exact (wants_require _).bind _ cursor (Nat.lt_of_not_le enough)

end Layout

end DiscVolume
