import DiscVolume.Cursor

/-! Compound layouts: a run of little-endian numbers and byte fields that is read in one step. A
compound is read whole or not at all, so a buffer too short for it leaves the cursor in place.
-/

namespace DiscVolume

/-- The widths of numbers. -/
inductive Width where
  | one
  | two
  | four
  | eight
  deriving DecidableEq, Repr

def Width.bytes : Width → Nat
  | .one => 1
  | .two => 2
  | .four => 4
  | .eight => 8

/-- A part of a layout: a number repeated some times, or one field of bytes. -/
inductive Layout.Item where
  | numbers (count : Nat) (width : Width)
  | field (size : Nat)
  deriving DecidableEq, Repr

/-- The items of a compound, in order. -/
abbrev Layout := List Layout.Item

/-- One decoded value of a compound. -/
inductive FieldValue where
  | number (value : Nat)
  | bytes (value : Bytes)
  deriving DecidableEq, Repr

namespace Layout

def Item.size : Item → Nat
  | .numbers count width => count * width.bytes
  | .field size => size

def size (layout : Layout) : Nat := layout.foldr (fun item total => item.size + total) 0

/-- One number of a given width. -/
def number (width : Width) : Decoder FieldValue := do
  return .number (Bytes.littleEndian (← Decoder.take width.bytes))

def Item.decode : Item → Decoder (List FieldValue)
  | .numbers count width => Decoder.times (number width) count
  | .field size => do return [.bytes (← Decoder.take size)]

/-- The values of the items, one item after the other. -/
def decodeItems : Layout → Decoder (List FieldValue)
  | [] => pure []
  | item :: others => do
      let values ← item.decode
      let more ← decodeItems others
      return values ++ more

/-- No compound has more bytes than this. -/
def sizeLimit : Nat := 0x7FFFFFFFFFFFFFFF

/-- The values of a compound whose bytes are all there. -/
def decode (layout : Layout) : Decoder (List FieldValue) := do
  if sizeLimit < layout.size then throw (.layout .tooLong)
  else do
    Decoder.require layout.size
    decodeItems layout

/-- The item that a letter and its count stand for. A count before s is the size of one field;
before any other letter it repeats the number.
-/
def itemOf? (count : Option Nat) : Char → Option Item
  | 'B' => some (.numbers (count.getD 1) .one)
  | 'H' => some (.numbers (count.getD 1) .two)
  | 'L' => some (.numbers (count.getD 1) .four)
  | 'Q' => some (.numbers (count.getD 1) .eight)
  | 's' => some (.field (count.getD 1))
  | _ => none

/-- (itemsOf? count letters) reads items, with the count already read for the first of them. -/
def itemsOf? (count : Option Nat) : List Char → Option Layout
  | [] => if count.isNone then some [] else none
  | letter :: others =>
      if letter.isDigit then
        itemsOf? (some (count.getD 0 * 10 + (letter.toNat - '0'.toNat))) others
      else do
        let item ← itemOf? count letter
        return item :: (← itemsOf? none others)

/-- The layout that a format text stands for: the mark of little-endian order, then letters
with optional counts.
-/
def ofText? (format : String) : Option Layout :=
  match format.toList with
  | '<' :: letters => itemsOf? none letters
  | _ => none

end Layout

end DiscVolume
