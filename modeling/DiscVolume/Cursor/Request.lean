import DiscVolume.Cursor.Fields
import DiscVolume.Layout

/-! The requests that can be made of a cursor from outside, with sizes of either sign. -/

namespace DiscVolume.Cursor

/-- A question to a cursor or a read through it. -/
inductive Request where
  | size
  | offset
  | remaining
  | atEnd
  | uint8
  | uint16
  | uint32
  | uint48
  | uint64
  | peekUInt16
  | peek (size : Int)
  | skip (size : Int)
  | bytes (size : Int)
  | text (size : Int)
  | dstring (size : Int)
  | dcharacters (length : Int)
  | timestamp
  | compound (layout : Layout)
  deriving DecidableEq, Repr

/-- What a request answers. -/
inductive Reply where
  | nothing
  | flag (value : Bool)
  | number (value : Nat)
  | bytes (value : Bytes)
  | text (value : String)
  | time (value : Option Calendar.CivilTime)
  | fields (values : List FieldValue)
  deriving DecidableEq, Repr

/-- (sized size decoder) reads a size that must not be negative. -/
def sized (size : Int) (decoder : Nat → Decoder α) : Decoder α :=
  if size < 0 then throw (.internal .negativeRead) else decoder size.toNat

/-- The bytes from the cursor up to a number of bytes on. A negative number that reaches
before the start of the buffer counts from its end instead; any other yields nothing.
-/
def look (size : Int) : Decoder Bytes := fun cursor =>
  if 0 ≤ size then Decoder.peek size.toNat cursor
  else if cursor.offset + size < 0 then
    .ok (cursor.rest.take (cursor.size + size).toNat) cursor
  else .ok [] cursor

/-- A field of d-characters. A negative length is found out after the compression identifier. -/
def dcharactersOf (length : Int) : Decoder String := do
  if length < 0 then do
    let _ ← Decoder.uint8
    throw (.internal .negativeRead)
  else Decoder.dcharacters length.toNat

def Request.run : Request → Decoder Reply
  | .size => do return .number (← get).size
  | .offset => do return .number (← get).offset
  | .remaining => do return .number (← get).remaining
  | .atEnd => do return .flag (← get).atEnd
  | .uint8 => do return .number (← Decoder.uint8).toNat
  | .uint16 => do return .number (← Decoder.uint16).toNat
  | .uint32 => do return .number (← Decoder.uint32).toNat
  | .uint48 => do return .number (← Decoder.uint48).toNat
  | .uint64 => do return .number (← Decoder.uint64).toNat
  | .peekUInt16 => do return .number (← Decoder.peekUInt16).toNat
  | .peek count => do return .bytes (← look count)
  | .skip count => do
      sized count Decoder.skip
      return .nothing
  | .bytes count => do return .bytes (← sized count Decoder.take)
  | .text count => do return .text (← sized count Decoder.text)
  | .dstring count => do return .text (← sized count Decoder.dstring)
  | .dcharacters length => do return .text (← dcharactersOf length)
  | .timestamp => do return .time (← Decoder.timestamp)
  | .compound layout => do return .fields (← layout.decode)

end DiscVolume.Cursor
