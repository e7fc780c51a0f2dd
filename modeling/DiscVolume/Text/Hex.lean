/-! Hexadecimal text in lower case, padded with zeros to a least width. -/

namespace DiscVolume.Text

/-- (hex width number) has at least width digits. -/
def hex (width number : Nat) : String :=
  let digits := Nat.toDigits 16 number
  String.ofList (List.replicate (width - digits.length) '0' ++ digits)

/-- Signed numbers are padded after the sign, which counts towards the width. -/
def signedHex (width : Nat) : Int → String
  | .ofNat number => hex width number
  | .negSucc number => "-" ++ hex (width - 1) (number + 1)

end DiscVolume.Text
