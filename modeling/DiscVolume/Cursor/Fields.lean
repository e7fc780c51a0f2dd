import DiscVolume.Calendar
import DiscVolume.Cursor

/-! Decoders for the recorded fields of ECMA-167: single-byte text, dstrings, d-characters and
timestamps.
-/

namespace DiscVolume.Decoder

/-- Single-byte text that fills a field. -/
def text (size : Nat) : Decoder String := do
  return Bytes.latin1 (← take size)

/-- The compression identifier of single-byte characters. -/
def singleByte : UInt8 := 8

/-- The compression identifier of big-endian two-byte characters. -/
def doubleByte : UInt8 := 16

/-- A field whose last byte holds the length of what is recorded in it: the compression
identifier, which must be that of single bytes, and the text. A length of 0 records nothing.
-/
def dstring (size : Nat) : Decoder String := do
  let field ← take size
  let length := (field.getLast?.getD 0).toNat
  if length = 0 then return ""
  else do
    demand (length ≤ size - 1) (.dstringLength length size)
    let compression := field.headD 0
    demand (compression = singleByte) (.dstringCompression compression)
    return Bytes.latin1 ((field.take length).drop 1)

/-- The text of d-characters after their compression identifier. -/
def dcharactersText (compression : UInt8) (data : Bytes) : Except Failure String :=
  if compression = singleByte then .ok (Bytes.latin1 data)
  else if compression = doubleByte then
    match Text.Utf16.decode data with
    | .ok characters => .ok (String.ofList characters)
    | .error fault => .error (.malformed (.identifierText fault))
  else .error (.malformed (.identifierEncoding compression))

/-- The value of a step that reads nothing. -/
def settle : Except Failure α → Decoder α
  | .ok value => pure value
  | .error failure => throw failure

/-- A field of d-characters: a compression identifier and text in single bytes or in big-endian
two-byte units. An empty field is the empty text.
-/
def dcharacters (length : Nat) : Decoder String :=
  if length = 0 then return ""
  else do
    let compression ← uint8
    let data ← take (length - 1)
    settle (dcharactersText compression data)

/-- The number of bytes of a timestamp. -/
def timestampSize : Nat := 12

/-- A recorded time. The type, the time zone and the fractions of a second are passed over. -/
def timestamp : Decoder (Option Calendar.CivilTime) := do
  require timestampSize
  skip 2
  let year ← uint16
  let month ← uint8
  let day ← uint8
  let hour ← uint8
  let minute ← uint8
  let second ← uint8
  skip 3
  return Calendar.ofFields? year.toNat month.toNat day.toNat hour.toNat minute.toNat second.toNat

instance (size : Nat) : Advancing (text size) := by unfold text; infer_instance

instance (size : Nat) : Advancing (dstring size) := by unfold dstring; infer_instance

instance (outcome : Except Failure α) : Advancing (settle outcome) := by
  unfold settle
  split <;> infer_instance

instance (length : Nat) : Advancing (dcharacters length) := by unfold dcharacters; infer_instance

instance : Advancing timestamp := by unfold timestamp; infer_instance

end DiscVolume.Decoder
