import DiscVolume.Proofs.Calendar
import DiscVolume.Proofs.Cursor.Dstrings
import Mathlib.Algebra.Ring.Nat

/-! Recorded forms that leave bytes open. A template says which bytes a value is recorded in, and
leaves the bytes that are passed over to whatever stands there. A decoder that finds the value over
every background undoes the recording.
-/

namespace DiscVolume

/-- A byte string of which some bytes are open. -/
abbrev Template := List (Option UInt8)

namespace Template

/-- A template over a background, whose byte for each place shows where the template is open. -/
def filled (template : Template) (background : Nat → UInt8) : Bytes :=
  template.mapIdx fun place slot => slot.getD (background place)

@[simp]
theorem length_filled (template : Template) (background : Nat → UInt8)
    : (template.filled background).length = template.length := List.length_mapIdx

/-- What comes second lies over the background from where it starts. -/
theorem append_filled (first second : Template) (background : Nat → UInt8)
    : (first ++ second).filled background
      = first.filled background ++ second.filled fun place => background (place + first.length) :=
  List.mapIdx_append

/-- Bytes none of which is open. -/
def recorded (data : Bytes) : Template := data.map some

@[simp]
theorem length_recorded (data : Bytes) : (recorded data).length = data.length :=
  List.length_map ..

@[simp]
theorem recorded_filled (data : Bytes) (background : Nat → UInt8)
    : (recorded data).filled background = data := by
  induction data generalizing background with
  | nil => rfl
  | cons byte rest ih =>
      have shifted := ih fun place => background (place + 1)
      rw [recorded, filled] at shifted ⊢
      rw [List.map_cons, List.mapIdx_cons, shifted, Option.getD_some]

/-- Bytes all of which are open. -/
def blank (count : Nat) : Template := List.replicate count none

@[simp]
theorem length_blank (count : Nat) : (blank count).length = count := List.length_replicate

/-- Templates one after the other. -/
def sequence (templates : List Template) : Template := templates.flatten

@[simp]
theorem length_sequence (templates : List Template)
    : (sequence templates).length = (templates.map List.length).sum := List.length_flatten

@[simp]
theorem sequence_cons (first : Template) (others : List Template)
    : sequence (first :: others) = first ++ sequence others := rfl

/-! The recorded forms of numbers are little-endian. -/

abbrev uint8 (value : UInt8) : Template := recorded (Bytes.ofNat 1 value.toNat)

theorem uint8_filled (value : UInt8) (background : Nat → UInt8)
    : (uint8 value).filled background = [value] := by
  rw [recorded_filled, Bytes.ofNat, Bytes.ofNat, UInt8.ofNat_toNat]

abbrev uint16 (value : UInt16) : Template := recorded (Bytes.ofNat 2 value.toNat)

abbrev uint32 (value : UInt32) : Template := recorded (Bytes.ofNat 4 value.toNat)

abbrev uint48 (value : BitVec 48) : Template := recorded (Bytes.ofNat 6 value.toNat)

abbrev uint64 (value : UInt64) : Template := recorded (Bytes.ofNat 8 value.toNat)

/-- A text recorded as a dstring in a field of some size: a compression identifier, the text and,
in the last byte, the length of both. The bytes between are open. An empty text has length 0 and
nothing else.
-/
def dstring (size : Nat) (text : String) : Template :=
  if text = "" then blank (size - 1) ++ uint8 0
  else
    recorded (Decoder.singleByte :: Bytes.ofText text) ++ blank (size - 2 - text.length)
      ++ uint8 (.ofNat (text.length + 1))

/-- A text that can be recorded in a field of some size. -/
structure FitsDstring (size : Nat) (text : String) : Prop where
  plain : Bytes.IsLatin1 text
  length_le : text.length + 2 ≤ size

/-- The fields of a time that is not recorded are zero. -/
def unrecorded : Calendar.CivilTime := ⟨0, 0, 0, 0, 0, 0⟩

/-- A recorded time. The type, the time zone and the fractions of a second are open. -/
def timestamp (time : Option Calendar.CivilTime) : Template :=
  let fields := time.getD unrecorded
  sequence [blank 2, uint16 (.ofNat fields.year), uint8 (.ofNat fields.month),
    uint8 (.ofNat fields.day), uint8 (.ofNat fields.hour), uint8 (.ofNat fields.minute),
    uint8 (.ofNat fields.second), blank 3]

theorem length_dstring {size : Nat} {text : String} (fits : FitsDstring size text)
    : (dstring size text).length = size := by
  have enough := fits.length_le
  unfold dstring
  split
  · simp only [List.length_append, length_blank, length_recorded, Bytes.length_ofNat]
    omega
  · simp only [List.length_append, length_blank, length_recorded, Bytes.length_ofNat,
      List.length_cons, Bytes.length_ofText]
    omega

end Template

namespace Decoder

open Template

/-- A decoder finds a value wherever the template of the value stands, over every background. -/
def Recovers (decoder : Decoder α) (template : Template) (value : α) : Prop :=
  ∀ background offset, Reads decoder offset (template.filled background) value

namespace Recovers

variable {template : Template} {fields : List Template} {count : Nat}

theorem pure (value : α) : Recovers (pure value) [] value := fun _ _ => Reads.pure value

/-- A decoder that recovers the first field and others that recover the rest, in sequence. -/
theorem bind {decoder : Decoder α} {others : α → Decoder β} {middle : α} {value : β}
    (head : Recovers decoder template middle)
    (tail : Recovers (others middle) (sequence fields) value)
    : Recovers (decoder >>= others) (sequence (template :: fields)) value := by
  intro background offset
  rw [sequence_cons, append_filled]
  exact (head _ _).bind (tail _ _)

/-- A last step may need no bytes of its own. -/
theorem bind_last {decoder : Decoder α} {others : α → Decoder β} {middle : α} {value : β}
    (head : Recovers decoder template middle) (tail : Recovers (others middle) [] value)
    : Recovers (decoder >>= others) template value :=
  fun background offset => (head background offset).bind_last (tail background _)

theorem require {others : Unit → Decoder β} {value : β} (enough : count ≤ template.length)
    (tail : Recovers (others ()) template value)
    : Recovers (Decoder.require count >>= others) template value :=
  fun background offset => .require (by rwa [length_filled]) (tail background offset)

theorem demand {others : Unit → Decoder β} {value : β} {condition : Bool} {cause : Defect}
    (holds : condition = true) (tail : Recovers (others ()) template value)
    : Recovers (Decoder.demand condition cause >>= others) template value :=
  fun background offset => .demand holds (tail background offset)

/-- Where no byte is open, the background does not matter. -/
theorem ofReads {decoder : Decoder α} {data : Bytes} {value : α}
    (reads : ∀ offset, Reads decoder offset data value)
    : Recovers decoder (recorded data) value := by
  intro background offset
  rw [recorded_filled]
  exact reads offset

theorem take {data : Bytes} (length : data.length = count)
    : Recovers (Decoder.take count) (recorded data) data := ofReads fun _ => Reads.take data length

theorem skip (count : Nat) : Recovers (Decoder.skip count) (blank count) () :=
  fun _ _ => Reads.skip _ (by rw [length_filled, length_blank])

theorem uint8 (value : UInt8) : Recovers Decoder.uint8 (Template.uint8 value) value :=
  ofReads fun _ => Reads.uint8 value

theorem uint16 (value : UInt16) : Recovers Decoder.uint16 (Template.uint16 value) value :=
  ofReads fun _ => Reads.uint16 value

theorem uint32 (value : UInt32) : Recovers Decoder.uint32 (Template.uint32 value) value :=
  ofReads fun _ => Reads.uint32 value

theorem uint48 (value : BitVec 48) : Recovers Decoder.uint48 (Template.uint48 value) value :=
  ofReads fun _ => Reads.uint48 value

theorem uint64 (value : UInt64) : Recovers Decoder.uint64 (Template.uint64 value) value :=
  ofReads fun _ => Reads.uint64 value

/-- A table is recovered entry by entry. -/
theorem times {decoder : Decoder α} {layout : α → Template} {values : List α}
    (each : ∀ value ∈ values, Recovers decoder (layout value) value)
    (length : values.length = count)
    : Recovers (Decoder.times decoder count) (sequence (values.map layout)) values := by
  subst length
  induction values with
  | nil => exact pure []
  | cons value others ih =>
      have behind := ih fun other member => each other (List.mem_cons_of_mem _ member)
      exact (each value List.mem_cons_self).bind (behind.bind_last (pure _))

/-- A dstring reads back as its text, whatever lies behind the text in the field. -/
theorem dstring {size : Nat} {text : String} (fits : FitsDstring size text) (small : size ≤ 256)
    : Recovers (Decoder.dstring size) (Template.dstring size text) text := by
  intro background offset
  have enough := fits.length_le
  by_cases empty : text = ""
  · refine (Reads.take _ (by rw [length_filled, length_dstring fits])).bind_last ?_
    rw [Template.dstring, if_pos empty, append_filled, uint8_filled, List.getLast?_concat, empty]
    exact Reads.pure ""
  · rw [Template.dstring, if_neg empty, append_filled, append_filled, uint8_filled, recorded_filled,
      List.append_assoc]
    generalize isFiller : (blank (size - 2 - text.length)).filled _ = filler
    have width : text.length + filler.length + 2 = size := by
      rw [← isFiller, length_filled, length_blank]
      omega
    rw [← width]
    exact reads_dstring offset fits.plain (by omega) filler

example : (Template.dstring 8 "AB").filled (fun _ => 9) = [8, 65, 66, 9, 9, 9, 9, 3] := by decide

/-- A time that is valid or not recorded reads back, whatever the bytes that are passed over. -/
theorem timestamp {time : Option Calendar.CivilTime} (valid : ∀ civil ∈ time, civil.IsValid)
    : Recovers Decoder.timestamp (Template.timestamp time) time := by
  unfold Decoder.timestamp Template.timestamp
  refine .require (by simp [timestampSize]) ?_
  refine (skip 2).bind ((uint16 _).bind ((uint8 _).bind ((uint8 _).bind ((uint8 _).bind
    ((uint8 _).bind ((uint8 _).bind ((skip 3).bind ?_)))))))
  cases time with
  | none => exact pure none
  | some civil =>
      have inRange := valid civil rfl
      have days := inRange.day_le
      have month := Calendar.daysInMonth_le civil.year civil.month
      have year := inRange.year_le
      have months := inRange.month_le
      have hours := inRange.hour_lt
      have minutes := inRange.minute_lt
      have seconds := inRange.second_lt
      rw [Calendar.lastYear] at year
      simp only [Option.getD_some, UInt16.toNat_ofNat', UInt8.toNat_ofNat']
      rw [Nat.mod_eq_of_lt (by omega), Nat.mod_eq_of_lt (by omega), Nat.mod_eq_of_lt (by omega),
        Nat.mod_eq_of_lt (by omega), Nat.mod_eq_of_lt (by omega), Nat.mod_eq_of_lt (by omega),
        inRange.ofFields?_eq]
      exact pure (some civil)

end Recovers

end Decoder

end DiscVolume
