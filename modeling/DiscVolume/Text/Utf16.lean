import DiscVolume.Bytes
import DiscVolume.Text.Hex

/-! Text in big-endian sixteen-bit units. A unit outside the surrogate ranges is a character; a
high surrogate and the low surrogate after it are one character above U+FFFF. Decoding stops at
the first spot that is neither, and says where that is.
-/

namespace DiscVolume.Text.Utf16

/-- Why a byte string is no sequence of characters. Positions count bytes from 0 and name the
first and, where it is not implied, the last byte at fault.
-/
inductive Fault where
  /-- One byte is left where a unit starts. -/
  | oddByte (byte : UInt8) (position : Nat)
  /-- A low surrogate stands where a character starts. -/
  | strayLow (position : Nat)
  /-- A high surrogate is followed by a unit that is no low surrogate. -/
  | unpairedHigh (position : Nat)
  /-- A high surrogate is followed by less than a unit. -/
  | openHigh (position last : Nat)
  deriving DecidableEq, Repr

def Fault.position : Fault → Nat
  | .oddByte _ position | .strayLow position | .unpairedHigh position | .openHigh position _ =>
      position

def Fault.message : Fault → String
  | .oddByte byte position =>
      "'utf-16-be' codec can't decode byte 0x" ++ hex 2 byte.toNat ++ " in position "
        ++ toString position ++ ": truncated data"
  | .strayLow position => span position (position + 1) "illegal encoding"
  | .unpairedHigh position => span position (position + 1) "illegal UTF-16 surrogate"
  | .openHigh position last => span position last "unexpected end of data"
where
  span (first last : Nat) (reason : String) : String :=
    "'utf-16-be' codec can't decode bytes in position " ++ toString first ++ "-"
      ++ toString last ++ ": " ++ reason

def unit (high low : UInt8) : Nat := high.toNat * 256 + low.toNat

def isHighSurrogate (code : Nat) : Bool := 0xD800 ≤ code && code < 0xDC00

def isLowSurrogate (code : Nat) : Bool := 0xDC00 ≤ code && code < 0xE000

/-- The character of a high and a low surrogate. -/
def pair (high low : Nat) : Char :=
  Char.ofNat (0x10000 + (high - 0xD800) * 0x400 + (low - 0xDC00))

/-- (decodeAt position bytes) decodes bytes whose first byte has the given position. -/
def decodeAt (position : Nat) : Bytes → Except Fault (List Char)
  | [] => .ok []
  | [byte] => .error (.oddByte byte position)
  | a :: b :: rest =>
      if isLowSurrogate (unit a b) then .error (.strayLow position)
      else if isHighSurrogate (unit a b) then
        match rest with
        | c :: d :: more =>
            if isLowSurrogate (unit c d) then do
              return pair (unit a b) (unit c d) :: (← decodeAt (position + 4) more)
            else .error (.unpairedHigh position)
        | short => .error (.openHigh position (position + 1 + short.length))
      else do
        return Char.ofNat (unit a b) :: (← decodeAt (position + 2) rest)

/-- The characters a byte string encodes. -/
def decode (bytes : Bytes) : Except Fault (List Char) := decodeAt 0 bytes

end DiscVolume.Text.Utf16
