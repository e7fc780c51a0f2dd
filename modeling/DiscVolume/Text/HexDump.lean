import DiscVolume.Bytes

/-! Byte strings written as two hexadecimal digits a byte, in lower case. -/

namespace DiscVolume.Text

/-- The digit for a number below 16. -/
def hexDigit (number : UInt8) : Char :=
  Char.ofNat (if number < 10 then '0'.toNat + number.toNat else 'a'.toNat + number.toNat - 10)

/-- The number below 16 that a digit stands for. -/
def hexDigitValue (digit : Char) : UInt8 :=
  UInt8.ofNat
    (if digit.isDigit then digit.toNat - '0'.toNat else digit.toNat - 'a'.toNat + 10)

/-- The digits of a byte string. -/
def hexDump (bytes : Bytes) : String :=
  bytes.foldl (fun text byte => (text.push (hexDigit (byte / 16))).push (hexDigit (byte % 16))) ""

/-- The packed bytes that digits stand for; a digit without a partner is passed over. -/
def ofHexDump (text : String) : ByteArray :=
  let take (state : ByteArray × Option UInt8) (digit : Char) : ByteArray × Option UInt8 :=
    match state with
    | (bytes, none) => (bytes, some (hexDigitValue digit))
    | (bytes, some high) => (bytes.push (high * 16 + hexDigitValue digit), none)
  (text.foldl take (ByteArray.empty, none)).1

end DiscVolume.Text
