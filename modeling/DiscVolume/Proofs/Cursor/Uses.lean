import DiscVolume.Proofs.Cursor.Formats
import DiscVolume.Proofs.Cursor.Guards
import DiscVolume.Proofs.Cursor.Timestamps

/-! What one use of a cursor can come to. A use looks at the cursor, or it reads a field: the field
is there and is passed over as a whole, or it is not and nothing is. The only reads that come to
something else are those of d-characters, of which the compression identifier is read by itself.
-/

namespace DiscVolume

open Calendar Decoder Sequencing

-----------------------------------------------------------------------------------------
-- Fields of the kinds that can be asked for
-----------------------------------------------------------------------------------------

namespace Decoder

variable {size : Nat}

/-- A number is the one that its bytes spell, in whatever way it is stored. -/
theorem fills_number {decoder : Decoder α} {f : Nat → α} {g : α → Nat}
    (stored : decoder = do return f (Bytes.littleEndian (← take size)))
    (kept : ∀ value < 1 <<< (8 * size), g (f value) = value)
    : Fills (do return Cursor.Reply.number (g (← decoder))) size fun field =>
        .ok (.number (Bytes.littleEndian field)) := by
  subst stored
  refine (((fills_take size).map fun bytes => f (Bytes.littleEndian bytes)).map
    fun value => Cursor.Reply.number (g value)).congr fun field length => ?_
  have bounded : Bytes.littleEndian field < 1 <<< (8 * size) := length ▸ Bytes.littleEndian_lt field
  change Except.ok (Cursor.Reply.number (g (f (Bytes.littleEndian field)))) = _
  rw [kept _ bounded]

theorem fills_text (size : Nat) : Fills (text size) size fun field => .ok (Bytes.latin1 field) :=
  (fills_take size).map Bytes.latin1

/-- The text of a dstring is that of as many bytes as the last one says. -/
theorem fills_dstring (size : Nat)
    : Fills (dstring size) size fun field =>
        dstringText field (field.getLast?.getD 0).toNat := by
  intro cursor enough
  have length := List.length_take_of_le enough
  cases isLast : (cursor.rest.take size).getLast? with
  | none =>
      rw [List.getLast?_eq_none_iff.mp isLast] at length
      subst length
      rfl
  | some byte =>
      have spelled := dstring_spelled cursor.offset
        (congrArg (Option.map UInt8.toNat) isLast) (cursor.rest.drop size)
      rw [List.take_append_drop, length] at spelled
      simp only [isLast]
      exact spelled

/-- The text of a field of d-characters, with its compression identifier. -/
def dcharactersField : Bytes → Except Failure String
  | [] => .ok ""
  | compression :: data => dcharactersText compression data

theorem fills_dcharacters (length : Nat)
    : Fills (dcharacters length) length dcharactersField := by
  intro cursor enough
  have counted := List.length_take_of_le enough
  cases spelled : cursor.rest.take length with
  | nil =>
      rw [spelled] at counted
      subst counted
      rfl
  | cons compression data =>
      rw [spelled] at counted
      have read := dcharacters_spelled cursor.offset compression data (cursor.rest.drop length)
      rw [← List.cons_append, ← spelled, List.take_append_drop, Nat.add_comm, ← List.length_cons,
        counted] at read
      exact read

/-- A time is that of the seven bytes of its fields. -/
theorem fills_timestamp
    : Fills timestamp timestampSize fun field =>
        .ok (CivilTime.recorded (field.slice 2 7)).carried? := by
  intro cursor enough
  rw [timestamp_eq_ok enough]
  have inField : Bytes.slice (cursor.rest.take timestampSize) 2 7 = cursor.rest.slice 2 7 := by
    rw [Bytes.slice, Bytes.slice, List.drop_take, List.take_take]
    rfl
  change _ = settle (.ok (CivilTime.recorded
    (Bytes.slice (cursor.rest.take timestampSize) 2 7)).carried?) _
  rw [inField]
  rfl

/-- A field of d-characters that is cut is found out at its compression identifier, if that is
missing, and else behind it.
-/
theorem dcharacters_of_cut {length : Nat} {cursor : Cursor} (short : cursor.remaining < length)
    : dcharacters length cursor
      = if cursor.remaining = 0 then
          .error (.truncated (.buffer 1 cursor.offset cursor.size)) cursor
        else .error (.truncated (.buffer (length - 1) (cursor.offset + 1) cursor.size))
          (cursor.advance 1) := by
  rw [dcharacters, if_neg (by omega)]
  have wants : Wants uint8 1 := (wants_take 1).bind _
  split
  · next none => exact bind_of_error (wants cursor (by omega))
  · next some =>
      have one : 1 ≤ cursor.remaining := Nat.one_le_iff_ne_zero.mpr some
      have behind : (cursor.advance 1).remaining < length - 1 := by
        rw [Cursor.remaining_advance]
        omega
      refine (bind_of_ok (uint8_eq_ok one)).trans ?_
      rw [bind_of_error (wants_take (length - 1) _ behind), Cursor.size_advance one]
      rfl

end Decoder

namespace Cursor

-----------------------------------------------------------------------------------------
-- Requests
-----------------------------------------------------------------------------------------

namespace Request

/-- Whether a request reads, or only looks at the cursor and what follows it. -/
def isRead : Request → Bool
  | .size | .offset | .remaining | .atEnd | .peekUInt16 | .peek _ => false
  | _ => true

/-- The size of the field that a request reads, if there is such a field. -/
def fieldSize? : Request → Option Nat
  | .size | .offset | .remaining | .atEnd | .peekUInt16 | .peek _ => none
  | .uint8 => some 1
  | .uint16 => some 2
  | .uint32 => some 4
  | .uint48 => some 6
  | .uint64 => some 8
  | .skip count | .bytes count | .text count | .dstring count | .dcharacters count =>
      count.toNat?
  | .timestamp => some timestampSize
  | .compound layout => layout.format.size.toOption

/-- What a read comes to, by the bytes of its field alone. -/
def reading : Request → Bytes → Except Failure Reply
  | .uint8, field | .uint16, field | .uint32, field | .uint48, field | .uint64, field =>
      .ok (.number (Bytes.littleEndian field))
  | .bytes _, field => .ok (.bytes field)
  | .text _, field => .ok (.text (Bytes.latin1 field))
  | .dstring _, field => .text <$> dstringText field (field.getLast?.getD 0).toNat
  | .dcharacters _, field => .text <$> dcharactersField field
  | .timestamp, field =>
      .ok (.time (CivilTime.recorded (field.slice 2 7)).carried?)
  | .compound layout, field => .ok (.fields (layout.values field))
  | _, _ => .ok .nothing

/-- A size that is a number of bytes passes its guard. -/
theorem sized_natCast (size : Nat) (decoder : Nat → Decoder α)
    : sized size decoder = decoder size :=
  sized_of_nonneg (Int.natCast_nonneg size) decoder

theorem dcharactersOf_natCast (length : Nat)
    : dcharactersOf length = Decoder.dcharacters length :=
  if_neg (by omega)

/-- A field that is there is read as a whole. -/
theorem fills_run {request : Request} {size : Nat} (sized : request.fieldSize? = some size)
    : Fills request.run size request.reading := by
  cases request with
  | size | offset | remaining | atEnd | peekUInt16 | peek count => cases sized
  | uint8 =>
      cases sized
      exact fills_number rfl fun value bounded => UInt8.toNat_ofNat_of_lt bounded
  | uint16 =>
      cases sized
      exact fills_number rfl fun value bounded => UInt16.toNat_ofNat_of_lt bounded
  | uint32 =>
      cases sized
      exact fills_number rfl fun value bounded => UInt32.toNat_ofNat_of_lt bounded
  | uint48 =>
      cases sized
      exact fills_number rfl fun value bounded =>
        (BitVec.toNat_ofNat value 48).trans (Nat.mod_eq_of_lt bounded)
  | uint64 =>
      cases sized
      exact fills_number rfl fun value bounded => UInt64.toNat_ofNat_of_lt bounded
  | skip count =>
      obtain rfl := Int.mem_toNat?.mp sized
      rw [run, sized_natCast]
      exact ((fills_take size).map fun _ => ()).map fun _ => Reply.nothing
  | bytes count =>
      obtain rfl := Int.mem_toNat?.mp sized
      rw [run, sized_natCast]
      exact (fills_take size).map Reply.bytes
  | text count =>
      obtain rfl := Int.mem_toNat?.mp sized
      rw [run, sized_natCast]
      exact (fills_text size).map Reply.text
  | dstring count =>
      obtain rfl := Int.mem_toNat?.mp sized
      rw [run, sized_natCast]
      exact (fills_dstring size).map Reply.text
  | dcharacters count =>
      obtain rfl := Int.mem_toNat?.mp sized
      rw [run, dcharactersOf_natCast]
      exact (fills_dcharacters size).map Reply.text
  | timestamp =>
      cases sized
      exact fills_timestamp.map Reply.time
  | compound layout =>
      rw [run, layout.decode_eq_format]
      exact (Format.fills_decode (Format.size_eq_ok sized)).map Reply.fields

/-- A field of any other kind than d-characters that is cut is found out before anything is read. -/
theorem wants_run {request : Request} {size : Nat} (sized : request.fieldSize? = some size)
    (notText : ∀ length, request ≠ .dcharacters length)
    : Wants request.run size := by
  cases request with
  | size | offset | remaining | atEnd | peekUInt16 | peek count => cases sized
  | uint8 | uint16 | uint32 | uint48 | uint64 =>
      cases sized
      exact ((wants_take _).bind _).bind _
  | skip count | text count | dstring count =>
      obtain rfl := Int.mem_toNat?.mp sized
      rw [run, sized_natCast]
      exact ((wants_take _).bind _).bind _
  | bytes count =>
      obtain rfl := Int.mem_toNat?.mp sized
      rw [run, sized_natCast]
      exact (wants_take _).bind _
  | dcharacters length => exact absurd rfl (notText length)
  | timestamp =>
      cases sized
      exact ((wants_require _).bind _).bind _
  | compound layout =>
      rw [run, layout.decode_eq_format]
      exact (Format.wants_decode (Format.size_eq_ok sized)).bind _

/-- To look back from the cursor always tells something. -/
theorem stays_look (count : Int) : Stays (look count) := by
  intro cursor
  unfold look
  split
  · exact stays_peek count.toNat cursor
  · split
    · exact ⟨.ok _, rfl⟩
    · exact ⟨.ok _, rfl⟩

/-- A look at a cursor moves nothing, whatever comes of it. -/
theorem stays_run {request : Request} (looks : request.isRead = false) : Stays request.run := by
  cases request with
  | size | offset | remaining | atEnd => exact fun cursor => ⟨.ok _, rfl⟩
  | peekUInt16 => exact stays_peekUInt16.map fun value => Reply.number value.toNat
  | peek count => exact (stays_look count).map Reply.bytes
  | uint8 | uint16 | uint32 | uint48 | uint64 | skip | bytes | text | dstring | dcharacters
  | timestamp | compound => cases looks

theorem neg_of_toNat? {count : Int} (noSize : count.toNat? = none) : count < 0 := by
  cases count with
  | ofNat size => cases noSize
  | negSucc size => exact Int.negSucc_lt_zero size

/-- Without a size of its field, a read fails before anything is read. Only where d-characters are
to be read, the compression identifier is.
-/
theorem run_of_unsized {request : Request} (reads : request.isRead = true)
    (unsized : request.fieldSize? = none) (cursor : Cursor)
    : (∃ failure, request.run cursor = .error failure cursor)
      ∨ ∃ length < 0, request = .dcharacters length ∧ 0 < cursor.remaining
        ∧ request.run cursor = .error (.internal .negativeRead) (cursor.advance 1) := by
  cases request with
  | size | offset | remaining | atEnd | peekUInt16 | peek => cases reads
  | uint8 | uint16 | uint32 | uint48 | uint64 | timestamp => cases unsized
  | skip count | bytes count | text count | dstring count =>
      have negative := neg_of_toNat? unsized
      refine .inl ⟨.internal .negativeRead, ?_⟩
      rw [run, sized, if_pos negative]
      rfl
  | dcharacters count =>
      have negative := neg_of_toNat? unsized
      have same : dcharactersOf count
          = (do let _ ← Decoder.uint8; throw (.internal .negativeRead)) := if_pos negative
      rw [run, same]
      by_cases there : 0 < cursor.remaining
      · exact .inr ⟨count, negative, rfl, there,
          bind_of_error (bind_of_ok (uint8_eq_ok (by omega)))⟩
      · have wants : Wants Decoder.uint8 1 := (wants_take 1).bind _
        exact .inl ⟨_, bind_of_error (bind_of_error (wants cursor (by omega)))⟩
  | compound layout =>
      obtain ⟨failure, wrong⟩ := Format.exists_of_unsized unsized
      refine .inl ⟨failure, ?_⟩
      rw [run, layout.decode_eq_format]
      exact bind_of_error (Format.decode_eq_error wrong cursor)

end Request

-----------------------------------------------------------------------------------------
-- Uses
-----------------------------------------------------------------------------------------

/-- One use of a cursor: a request, or a read of a compound by any format. -/
inductive Use (α : Type) where
  | request (asked : Request)
  | compound (format : Format α)

namespace Use

def run : Use α → Decoder (Reply ⊕ α)
  | .request asked => do return .inl (← asked.run)
  | .compound format => do return .inr (← format.decode)

/-- Whether a use reads, or only looks at the cursor and what follows it. -/
def isRead : Use α → Bool
  | .request asked => asked.isRead
  | .compound _ => true

/-- The size of the field that a use reads, if there is such a field. -/
def fieldSize? : Use α → Option Nat
  | .request asked => asked.fieldSize?
  | .compound format => format.size.toOption

/-- What a read comes to, by the bytes of its field alone. -/
def reading : Use α → Bytes → Except Failure (Reply ⊕ α)
  | .request asked, field => .inl <$> asked.reading field
  | .compound format, field => .ok (.inr (format.values field))

/-- D-characters of which there is the compression identifier, but not all of the text. -/
def IsCut (use : Use α) (cursor : Cursor) : Prop :=
  ∃ length : Nat, use = .request (.dcharacters length)
    ∧ 0 < cursor.remaining ∧ cursor.remaining < length

/-- What a use of a cursor can come to. -/
inductive Course (use : Use α) (cursor : Cursor) : Prop
  /-- Nothing is read. -/
  | looks (isLook : use.isRead = false) (outcome : Except Failure (Reply ⊕ α))
      (course : use.run cursor = settle outcome cursor)
  /-- A field is there and is passed over. -/
  | reads (isRead : use.isRead = true) {size : Nat} (sized : use.fieldSize? = some size)
      (enough : size ≤ cursor.remaining)
      (course : use.run cursor
        = settle (use.reading (cursor.rest.take size)) (cursor.advance size))
  /-- A field is not all there. -/
  | wants (isRead : use.isRead = true) {size : Nat} (sized : use.fieldSize? = some size)
      (short : cursor.remaining < size) (truncation : Truncation)
      (course : use.run cursor = .error (.truncated truncation) cursor)
  /-- There can be no such field. -/
  | refused (isRead : use.isRead = true) (unsized : use.fieldSize? = none) (failure : Failure)
      (course : use.run cursor = .error failure cursor)
  /-- Text ends too early, behind its compression identifier. -/
  | cut (isCut : use.IsCut cursor) (truncation : Truncation)
      (course : use.run cursor = .error (.truncated truncation) (cursor.advance 1))
  /-- A negative number of d-characters is found out behind their compression identifier. -/
  | negative {length : Int} (isText : use = .request (.dcharacters length))
      (there : 0 < cursor.remaining) (negative : length < 0)
      (course : use.run cursor = .error (.internal .negativeRead) (cursor.advance 1))

end Use

theorem Use.run_of_isCut {use : Use α} {cursor : Cursor} (isCut : use.IsCut cursor)
    : ∃ truncation, use.run cursor = .error (.truncated truncation) (cursor.advance 1) := by
  obtain ⟨length, rfl, there, short⟩ := isCut
  have cut := dcharacters_of_cut short
  rw [if_neg (by omega), ← Request.dcharactersOf_natCast] at cut
  exact ⟨_, bind_of_error (bind_of_error cut)⟩

theorem Request.course_of_short {cursor : Cursor} {size : Nat} (asked : Request)
    (isRead : asked.isRead = true) (sized : asked.fieldSize? = some size)
    (short : cursor.remaining < size)
    : (Use.request asked : Use α).Course cursor := by
  by_cases isText : ∃ length, asked = .dcharacters length
  · obtain ⟨length, rfl⟩ := isText
    obtain rfl := Int.mem_toNat?.mp sized
    by_cases there : 0 < cursor.remaining
    · have isCut : (Use.request (.dcharacters size) : Use α).IsCut cursor :=
        ⟨size, rfl, there, short⟩
      obtain ⟨truncation, course⟩ := Use.run_of_isCut isCut
      exact .cut isCut truncation course
    · have missing := dcharacters_of_cut short
      rw [if_pos (by omega), ← Request.dcharactersOf_natCast] at missing
      exact .wants isRead sized short _ (bind_of_error (bind_of_error missing))
  · have wants := Request.wants_run sized fun length same => isText ⟨length, same⟩
    exact .wants isRead sized short _ (wants.bind _ cursor short)

namespace Use

/-- Whatever is asked, and wherever the cursor is. -/
theorem course (use : Use α) (cursor : Cursor) : use.Course cursor := by
  cases use with
  | compound format =>
      cases sized : format.size.toOption with
      | none =>
          obtain ⟨failure, wrong⟩ := Format.exists_of_unsized sized
          exact .refused rfl sized failure (bind_of_error (Format.decode_eq_error wrong cursor))
      | some size =>
          have isSize := Format.size_eq_ok sized
          by_cases enough : size ≤ cursor.remaining
          · exact .reads rfl sized enough
              (((Format.fills_decode isSize).map Sum.inr) cursor enough)
          · have short := Nat.lt_of_not_le enough
            exact .wants rfl sized short _ ((Format.wants_decode isSize).bind _ cursor short)
  | request asked =>
      cases isRead : asked.isRead with
      | false =>
          obtain ⟨outcome, settled⟩ := (Request.stays_run isRead).map Sum.inl cursor
          exact .looks isRead outcome settled
      | true =>
          cases sized : asked.fieldSize? with
          | none =>
              obtain ⟨failure, failed⟩ | ⟨length, negative, rfl, there, failed⟩ :=
                Request.run_of_unsized isRead sized cursor
              · exact .refused isRead sized failure (bind_of_error failed)
              · exact .negative rfl there negative (bind_of_error failed)
          | some size =>
              by_cases enough : size ≤ cursor.remaining
              · exact .reads isRead sized enough
                  ((Request.fills_run sized).map Sum.inl cursor enough)
              · exact asked.course_of_short isRead sized (Nat.lt_of_not_le enough)

end Use

end Cursor

end DiscVolume
