import DiscVolume.Proofs.Cursor.Reading
import DiscVolume.Proofs.Cursor.Uses
import Mathlib.Algebra.Ring.Nat
import Mathlib.Data.List.Forall2

/-! The slots of a compound. A layout has one slot for each of its values, and its items are read
slot by slot, so they are what the reads of single numbers and byte fields find one after the other.
Values are packed slot by slot as well, and what is packed is read back.
-/

namespace DiscVolume

open Cursor Decoder Sequencing

namespace Layout

-----------------------------------------------------------------------------------------
-- Slots
-----------------------------------------------------------------------------------------

/-- The place of one value of a compound. -/
inductive Slot where
  | number (width : Width)
  | field (size : Nat)
  deriving DecidableEq, Repr

namespace Slot

def size : Slot → Nat
  | .number width => width.bytes
  | .field size => size

def decode : Slot → Decoder FieldValue
  | .number width => Layout.number width
  | .field size => do return .bytes (← take size)

/-- What the bytes of a slot stand for. -/
def value : Slot → Bytes → FieldValue
  | .number _, bytes => .number (Bytes.littleEndian bytes)
  | .field _, bytes => .bytes bytes

theorem decode_eq (slot : Slot) : slot.decode = (do return slot.value (← take slot.size)) := by
  cases slot with
  | number width => rfl
  | field size => rfl

theorem fills_decode (slot : Slot)
    : Fills slot.decode slot.size fun field => .ok (slot.value field) := by
  rw [decode_eq]
  exact (fills_take slot.size).map slot.value

theorem wants_decode (slot : Slot) : Wants slot.decode slot.size := by
  rw [decode_eq]
  exact (wants_take slot.size).bind _

end Slot

/-- A number has as many slots as it is repeated, and a field of bytes has one. -/
def Item.slots : Item → List Slot
  | .numbers count width => List.replicate count (.number width)
  | .field size => [.field size]

def slots (layout : Layout) : List Slot := layout.flatMap Item.slots

theorem slots_cons (item : Item) (others : Layout)
    : slots (item :: others) = item.slots ++ slots others := List.flatMap_cons

theorem Item.size_slots (item : Item) : (item.slots.map Slot.size).sum = item.size := by
  cases item with
  | numbers count width => simp [slots, size, Slot.size]
  | field count => simp [slots, size, Slot.size]

theorem size_slots (layout : Layout) : (layout.slots.map Slot.size).sum = layout.size := by
  induction layout with
  | nil => rfl
  | cons item others ih =>
      rw [slots_cons, List.map_append, List.sum_append, item.size_slots, ih]
      rfl

theorem Item.decode_eq_mapM (item : Item) : item.decode = item.slots.mapM Slot.decode := by
  cases item with
  | numbers count width =>
      rw [decode, slots]
      induction count with
      | zero => rfl
      | succ count ih =>
          rw [times, ih, List.replicate_succ, List.mapM_cons]
          rfl
  | field size => simp [decode, slots, Slot.decode]

/-- The items of a layout are read slot by slot, by induction on the items. -/
theorem decodeItems_eq_mapM (layout : Layout)
    : layout.decodeItems = layout.slots.mapM Slot.decode := by
  induction layout with
  | nil => rfl
  | cons item others ih =>
      rw [decodeItems, ih, item.decode_eq_mapM, slots_cons, List.mapM_append]

/-- Slots are read only where they are all there, by induction on the slots. -/
theorem needs_slots (slots : List Slot)
    : Needs (slots.mapM Slot.decode) (slots.map Slot.size).sum := by
  induction slots with
  | nil => exact fun cursor _ _ _ => Nat.zero_le cursor.remaining
  | cons slot others ih =>
      rw [List.mapM_cons, List.map_cons, List.sum_cons]
      exact .bind slot.fills_decode slot.wants_decode.needs fun first => ih.map (first :: ·)

end Layout

-----------------------------------------------------------------------------------------
-- Single reads
-----------------------------------------------------------------------------------------

/-- The request for a single number. -/
def Width.request : Width → Request
  | .one => .uint8
  | .two => .uint16
  | .four => .uint32
  | .eight => .uint64

/-- What a value is answered as where it is asked for by itself. -/
def FieldValue.reply : FieldValue → Reply
  | .number value => .number value
  | .bytes value => .bytes value

theorem FieldValue.reply_injective : Function.Injective reply := by
  intro first second same
  cases first <;> cases second <;> cases same <;> rfl

namespace Layout

namespace Slot

/-- The request that reads a slot by itself. -/
def request : Slot → Request
  | .number width => width.request
  | .field size => .bytes size

theorem fieldSize?_request (slot : Slot) : slot.request.fieldSize? = some slot.size := by
  cases slot with
  | number width => cases width <;> rfl
  | field size => rfl

theorem reading_request (slot : Slot) (field : Bytes)
    : slot.request.reading field = .ok (slot.value field).reply := by
  cases slot with
  | number width => cases width <;> rfl
  | field size => rfl

theorem request_ne_dcharacters (slot : Slot) (length : Int)
    : slot.request ≠ .dcharacters length := by
  cases slot with
  | number width => cases width <;> exact Request.noConfusion
  | field size => exact Request.noConfusion

/-- To read a slot by itself is to read it within its compound. -/
theorem run_request (slot : Slot)
    : slot.request.run = (do return (← slot.decode).reply) := by
  have fills := Request.fills_run slot.fieldSize?_request
  have wants := Request.wants_run slot.fieldSize?_request slot.request_ne_dcharacters
  exact eq_of_fills (fills.congr fun field _ => slot.reading_request field) wants
    (slot.fills_decode.map FieldValue.reply) (slot.wants_decode.bind _)

end Slot

/-- The requests that read the values of a compound one after the other. -/
def requests (layout : Layout) : List Request := layout.slots.map Slot.request

/-- Slots that are read one after the other, by induction on the slots. -/
theorem mapM_run_slots (slots : List Slot)
    : (slots.map Slot.request).mapM Request.run
      = (do return (← slots.mapM Slot.decode).map FieldValue.reply) := by
  induction slots with
  | nil => rfl
  | cons slot others ih =>
      rw [List.map_cons, List.mapM_cons, List.mapM_cons, ih, slot.run_request]
      simp only [bind_assoc, pure_bind, List.map_cons]

/-- The single reads of the values of a compound find what its items hold. -/
theorem mapM_run_requests (layout : Layout)
    : layout.requests.mapM Request.run
      = (do return (← layout.decodeItems).map FieldValue.reply) := by
  rw [requests, mapM_run_slots, decodeItems_eq_mapM]

variable {layout : Layout} {cursor next : Cursor} {values : List FieldValue}

/-- Single reads of the values of a compound find nothing but such values. -/
theorem exists_of_mapM_run {replies : List Reply}
    (singly : layout.requests.mapM Request.run cursor = .ok replies next)
    : ∃ values : List FieldValue, replies = values.map FieldValue.reply := by
  rw [mapM_run_requests, bind_pure_comp] at singly
  obtain ⟨values, -, same⟩ := map_eq_ok.mp singly
  exact ⟨values, same.symm⟩

theorem le_remaining_of_decodeItems (decoded : layout.decodeItems cursor = .ok values next)
    : layout.size ≤ cursor.remaining := by
  rw [decodeItems_eq_mapM] at decoded
  rw [← size_slots]
  exact needs_slots layout.slots cursor values next decoded

theorem le_remaining_of_decode (decoded : layout.decode cursor = .ok values next)
    : layout.size ≤ cursor.remaining := by
  rw [decode] at decoded
  split at decoded
  · cases decoded
  · exact ((wants_require layout.size).bind _).needs cursor values next decoded

/-- In a buffer of a size that compounds can have, a compound is read just if its items are. -/
theorem decode_eq_ok_iff (held : cursor.size ≤ sizeLimit)
    : layout.decode cursor = .ok values next ↔ layout.decodeItems cursor = .ok values next := by
  by_cases enough : layout.size ≤ cursor.remaining
  · have fits : ¬sizeLimit < layout.size := by
      rw [Cursor.size] at held
      omega
    rw [decode, if_neg fits, bind_of_ok (require_eq_ok enough)]
  · exact ⟨fun decoded => absurd (le_remaining_of_decode decoded) enough,
      fun decoded => absurd (le_remaining_of_decodeItems decoded) enough⟩

/-- A compound is answered just if all single reads are, and then with their values and at their
place.
-/
theorem run_compound_eq_ok_iff (held : cursor.size ≤ sizeLimit) {reply : Reply}
    : (Request.compound layout).run cursor = .ok reply next
      ↔ ∃ values, reply = .fields values
        ∧ layout.requests.mapM Request.run cursor
          = .ok (values.map FieldValue.reply) next := by
  rw [mapM_run_requests, bind_pure_comp, Request.run, bind_pure_comp, map_eq_ok]
  simp only [map_eq_ok, decode_eq_ok_iff held]
  constructor
  · rintro ⟨values, decoded, rfl⟩
    exact ⟨values, rfl, values, decoded, rfl⟩
  · rintro ⟨values, rfl, own, decoded, same⟩
    obtain rfl := List.map_injective_iff.mpr FieldValue.reply_injective same
    exact ⟨_, decoded, rfl⟩

-----------------------------------------------------------------------------------------
-- Packing
-----------------------------------------------------------------------------------------

/-- Bytes cut off or filled up with zeros to a size. -/
def fitted (size : Nat) (bytes : Bytes) : Bytes := (bytes.take size).rightpad size 0

namespace Slot

/-- The bytes of a value in a slot. A number has to fit, and bytes are made to. -/
def pack : Slot → FieldValue → Option Bytes
  | .number width, .number value =>
      if value < 1 <<< (8 * width.bytes) then some (Bytes.ofNat width.bytes value) else none
  | .field size, .bytes bytes => some (fitted size bytes)
  | .number _, .bytes _ | .field _, .number _ => none

/-- What a slot keeps of a value. -/
def kept : Slot → FieldValue → FieldValue
  | .field size, .bytes bytes => .bytes (fitted size bytes)
  | _, value => value

/-- A value in the range of a slot: a number that fits, or as many bytes as there are in the slot. -/
def InRange : Slot → FieldValue → Prop
  | .number width, .number value => value < 1 <<< (8 * width.bytes)
  | .field size, .bytes bytes => bytes.length = size
  | .number _, .bytes _ | .field _, .number _ => False

instance : DecidableRel InRange
  | .number width, .number value => inferInstanceAs (Decidable (value < 1 <<< (8 * width.bytes)))
  | .field size, .bytes bytes => inferInstanceAs (Decidable (bytes.length = size))
  | .number _, .bytes _ | .field _, .number _ => .isFalse id

end Slot

/-- The bytes of values, one for each slot. -/
def packSlots : List Slot → List FieldValue → Option Bytes
  | [], [] => some []
  | slot :: slots, value :: values => do
      let first ← slot.pack value
      let others ← packSlots slots values
      return first ++ others
  | [], _ :: _ | _ :: _, [] => none

/-- The bytes of the values of a compound. -/
def pack (layout : Layout) (values : List FieldValue) : Option Bytes :=
  if sizeLimit < layout.size then none else packSlots layout.slots values

@[simp]
theorem length_fitted (size : Nat) (bytes : Bytes) : (fitted size bytes).length = size := by
  rw [fitted, List.length_rightpad, Nat.max_eq_left (List.length_take_le ..)]

theorem fitted_of_length {size : Nat} {bytes : Bytes} (length : bytes.length = size)
    : fitted size bytes = bytes := by
  subst length
  simp [fitted, List.rightpad]

namespace Slot

/-- A value of a slot and the bytes that it is packed in. -/
inductive Packed : Slot → FieldValue → Bytes → Prop
  | number {width : Width} {value : Nat} (bounded : value < 1 <<< (8 * width.bytes))
      : Packed (.number width) (.number value) (Bytes.ofNat width.bytes value)
  | field (size : Nat) (bytes : Bytes) : Packed (.field size) (.bytes bytes) (fitted size bytes)

variable {slot : Slot} {value : FieldValue} {data : Bytes}

theorem packed_of_pack (found : slot.pack value = some data) : Packed slot value data := by
  cases slot with
  | number width =>
      cases value with
      | number value =>
          obtain ⟨bounded, same⟩ := Option.ite_none_right_eq_some.mp found
          cases same
          exact .number bounded
      | bytes bytes => cases found
  | field size =>
      cases value with
      | number value => cases found
      | bytes bytes =>
          cases found
          exact .field size bytes

theorem Packed.length_eq (packed : Packed slot value data) : data.length = slot.size := by
  cases packed with
  | number bounded => exact Bytes.length_ofNat ..
  | field size bytes => exact length_fitted ..

/-- What is packed in a slot is read as what the slot keeps. -/
theorem Packed.reads (packed : Packed slot value data) (offset : Nat)
    : Reads slot.decode offset data (slot.kept value) := by
  cases packed with
  | number bounded => exact Reads.number bounded
  | field size bytes => exact (Reads.take _ (length_fitted size bytes)).bind_last (.pure _)

/-- A value in range is packed, and kept as it is. -/
theorem InRange.exists_pack (inRange : slot.InRange value)
    : (∃ data, slot.pack value = some data) ∧ slot.kept value = value := by
  cases slot with
  | number width =>
      cases value with
      | number value => exact ⟨⟨_, if_pos inRange⟩, rfl⟩
      | bytes bytes => cases inRange
  | field size =>
      cases value with
      | number value => cases inRange
      | bytes bytes => exact ⟨⟨_, rfl⟩, congrArg FieldValue.bytes (fitted_of_length inRange)⟩

end Slot

variable {slots : List Slot} {data : Bytes}

/-- Values in range are packed, and kept as they are, by induction on the slots. -/
theorem exists_packSlots (inRange : List.Forall₂ Slot.InRange slots values)
    : (∃ data, packSlots slots values = some data)
      ∧ List.zipWith Slot.kept slots values = values := by
  induction inRange with
  | nil => exact ⟨⟨[], rfl⟩, rfl⟩
  | cons first _ ih =>
      obtain ⟨⟨front, packedFirst⟩, keptFirst⟩ := first.exists_pack
      obtain ⟨⟨back, packedOthers⟩, keptOthers⟩ := ih
      refine ⟨⟨front ++ back, ?_⟩, ?_⟩
      · rw [packSlots, packedFirst, packedOthers]
        rfl
      · rw [List.zipWith_cons_cons, keptFirst, keptOthers]

/-- What is packed slot by slot is as long as the slots and is read as what they keep, by induction
on the slots.
-/
theorem reads_of_packSlots (packed : packSlots slots values = some data) (offset : Nat)
    : data.length = (slots.map Slot.size).sum
      ∧ Reads (slots.mapM Slot.decode) offset data (List.zipWith Slot.kept slots values) := by
  induction slots generalizing values data offset with
  | nil =>
      cases values with
      | nil =>
          cases packed
          exact ⟨rfl, .pure []⟩
      | cons value others => cases packed
  | cons slot slots ih =>
      cases values with
      | nil => cases packed
      | cons value others =>
          simp only [packSlots, Option.bind_eq_bind, Option.bind_eq_some_iff] at packed
          obtain ⟨front, packedFirst, back, packedOthers, same⟩ := packed
          cases same
          have first := Slot.packed_of_pack packedFirst
          obtain ⟨length, rest⟩ := ih packedOthers (offset + front.length)
          constructor
          · rw [List.length_append, first.length_eq, length, List.map_cons, List.sum_cons]
          · rw [List.mapM_cons, List.zipWith_cons_cons]
            exact (first.reads offset).bind (rest.bind_last (.pure _))

/-- What is packed is read, wherever it stands, as what the slots of the layout keep. -/
theorem reads_of_pack (packed : layout.pack values = some data) (offset : Nat)
    : Reads (Request.compound layout).run offset data
        (.fields (List.zipWith Slot.kept layout.slots values)) := by
  obtain ⟨fits, packed⟩ := Option.ite_none_left_eq_some.mp packed
  obtain ⟨length, read⟩ := reads_of_packSlots packed offset
  rw [← decodeItems_eq_mapM] at read
  rw [size_slots] at length
  have decoded : Reads layout.decode offset data (List.zipWith Slot.kept layout.slots values) := by
    rw [decode, if_neg fits]
    exact .require (Nat.le_of_eq length.symm) read
  exact decoded.bind_last (.pure _)

/-- Values in the range of a layout are packed, and what they are packed in is read as the values. -/
theorem exists_pack_reads (fits : layout.size ≤ sizeLimit)
    (inRange : List.Forall₂ Slot.InRange layout.slots values)
    : ∃ data, layout.pack values = some data
      ∧ ∀ offset, Reads (Request.compound layout).run offset data (.fields values) := by
  obtain ⟨⟨data, packedSlots⟩, kept⟩ := exists_packSlots inRange
  have packed : layout.pack values = some data := (if_neg (Nat.not_lt.mpr fits)).trans packedSlots
  refine ⟨data, packed, fun offset => ?_⟩
  have read := reads_of_pack packed offset
  rwa [kept] at read

end Layout

end DiscVolume
