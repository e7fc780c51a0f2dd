import DiscVolume.Text.Utf16

/-! Text in two-byte units, written and read back. A character below U+10000 is the unit of its own
number, which is never a surrogate; the number of any other character is split over a high and a low
surrogate. What is decoded is what was encoded, and a fault is where the longest encoded text in
front ends.
-/

namespace DiscVolume.Text.Utf16

/-- The bytes of a unit, the upper one first. -/
def unitBytes (code : Nat) : Bytes := [UInt8.ofNat (code / 256), UInt8.ofNat code]

theorem unit_of_lt {code : Nat} (h : code < 0x10000)
    : unit (UInt8.ofNat (code / 256)) (UInt8.ofNat code) = code := by
  simp only [unit, UInt8.toNat_ofNat', Nat.reducePow]
  omega

/-- The high surrogate of a character above U+FFFF. -/
def highSurrogate (character : Char) : Nat := 0xD800 + (character.toNat - 0x10000) / 0x400

/-- The low surrogate of a character above U+FFFF. -/
def lowSurrogate (character : Char) : Nat := 0xDC00 + (character.toNat - 0x10000) % 0x400

def encodeCharacter (character : Char) : Bytes :=
  if character.toNat < 0x10000 then unitBytes character.toNat
  else unitBytes (highSurrogate character) ++ unitBytes (lowSurrogate character)

/-- The bytes that encode a sequence of characters. -/
def encode (characters : List Char) : Bytes := characters.flatMap encodeCharacter

theorem toNat_lt (character : Char) : character.toNat < 0x110000 := by
  rcases character.valid with low | ⟨-, high⟩
  · exact Nat.lt_trans low (by decide)
  · exact high

/-- No character has the number of a surrogate. -/
theorem not_surrogate (character : Char)
    : isHighSurrogate character.toNat = false ∧ isLowSurrogate character.toNat = false := by
  have valid : character.toNat.isValidChar := character.valid
  simp only [Nat.isValidChar] at valid
  simp only [isHighSurrogate, isLowSurrogate, Bool.and_eq_false_iff, decide_eq_false_iff_not]
  omega

theorem highSurrogate_range (character : Char)
    : 0xD800 ≤ highSurrogate character ∧ highSurrogate character < 0xDC00 := by
  have bounded := toNat_lt character
  rw [highSurrogate]
  omega

theorem lowSurrogate_range (character : Char)
    : 0xDC00 ≤ lowSurrogate character ∧ lowSurrogate character < 0xE000 := by
  rw [lowSurrogate]
  omega

/-- The surrogates of a character above U+FFFF lead back to it. -/
theorem pair_surrogates {character : Char} (above : ¬character.toNat < 0x10000)
    : pair (highSurrogate character) (lowSurrogate character) = character := by
  have joined : 0x10000 + (highSurrogate character - 0xD800) * 0x400
      + (lowSurrogate character - 0xDC00) = character.toNat := by
    rw [highSurrogate, lowSurrogate]
    omega
  rw [pair, joined, Char.ofNat_toNat]

/-- A unit that is no surrogate is a character of its own. -/
theorem decodeAt_unit {a b : UInt8} (notHigh : isHighSurrogate (unit a b) = false)
    (notLow : isLowSurrogate (unit a b) = false) (position : Nat) (rest : Bytes)
    : decodeAt position (a :: b :: rest)
      = (Char.ofNat (unit a b) :: ·) <$> decodeAt (position + 2) rest := by
  conv => lhs; unfold decodeAt
  simp only [notHigh, notLow, Bool.false_eq_true, if_false]
  rfl

/-- A high and a low surrogate are one character. -/
theorem decodeAt_pair {a b c d : UInt8} (isHigh : isHighSurrogate (unit a b) = true)
    (notLow : isLowSurrogate (unit a b) = false) (isLow : isLowSurrogate (unit c d) = true)
    (position : Nat) (rest : Bytes)
    : decodeAt position (a :: b :: c :: d :: rest)
      = (pair (unit a b) (unit c d) :: ·) <$> decodeAt (position + 4) rest := by
  conv => lhs; unfold decodeAt
  simp only [isHigh, notLow, isLow, Bool.false_eq_true, if_false, if_true]
  rfl

/-- An encoded character is found in front of whatever follows it. -/
theorem decodeAt_encodeCharacter_append (character : Char) (position : Nat) (rest : Bytes)
    : decodeAt position (encodeCharacter character ++ rest)
      = (character :: ·) <$> decodeAt (position + (encodeCharacter character).length) rest := by
  rw [encodeCharacter]
  split
  · next low =>
      have own := unit_of_lt low
      obtain ⟨notHigh, notLow⟩ := not_surrogate character
      rw [← own] at notHigh notLow
      have read := decodeAt_unit notHigh notLow position rest
      rwa [own, Char.ofNat_toNat] at read
  · next above =>
      have high := highSurrogate_range character
      have low := lowSurrogate_range character
      have first := unit_of_lt (Nat.lt_trans high.2 (by decide))
      have second := unit_of_lt (Nat.lt_trans low.2 (by decide))
      have isHigh : isHighSurrogate (highSurrogate character) = true := by
        simp [isHighSurrogate, high]
      have notLow : isLowSurrogate (highSurrogate character) = false := by
        simp [isLowSurrogate, Nat.not_le_of_lt high.2]
      have isLow : isLowSurrogate (lowSurrogate character) = true := by
        simp [isLowSurrogate, low]
      rw [← first] at isHigh notLow
      rw [← second] at isLow
      have read := decodeAt_pair isHigh notLow isLow position rest
      rwa [first, second, pair_surrogates above] at read

/-- Decoding undoes encoding. -/
theorem decode_encode (characters : List Char) : decode (encode characters) = .ok characters := by
  have everywhere (position : Nat) : decodeAt position (encode characters) = .ok characters := by
    induction characters generalizing position with
    | nil => rfl
    | cons character others ih =>
        rw [encode, List.flatMap_cons, decodeAt_encodeCharacter_append, ← encode, ih]
        rfl
  exact everywhere 0

-----------------------------------------------------------------------------------------
-- What is decoded
-----------------------------------------------------------------------------------------

theorem toNat_ofNat {code : Nat} (valid : code.isValidChar) : (Char.ofNat code).toNat = code := by
  rw [Char.ofNat, dif_pos valid]
  rfl

theorem unitBytes_unit (a b : UInt8) : unitBytes (unit a b) = [a, b] := by
  have upper : (a.toNat * 256 + b.toNat) / 256 = a.toNat := by
    have bounded := b.toNat_lt
    omega
  have lower : UInt8.ofNat (a.toNat * 256 + b.toNat) = b := by
    refine UInt8.toNat_inj.mp ?_
    have bounded := b.toNat_lt
    simp only [UInt8.toNat_ofNat', Nat.reducePow]
    omega
  rw [unitBytes, unit, upper, lower, UInt8.ofNat_toNat]

/-- A character that is a unit is encoded as that unit. -/
theorem encodeCharacter_unit {a b : UInt8} (notHigh : isHighSurrogate (unit a b) = false)
    (notLow : isLowSurrogate (unit a b) = false)
    : encodeCharacter (Char.ofNat (unit a b)) = [a, b] := by
  have bounded : unit a b < 0x10000 := by
    have first := a.toNat_lt
    have second := b.toNat_lt
    rw [unit]
    omega
  have valid : (unit a b).isValidChar := by
    simp only [isHighSurrogate, isLowSurrogate, Bool.and_eq_false_iff, decide_eq_false_iff_not]
      at notHigh notLow
    simp only [Nat.isValidChar]
    omega
  rw [encodeCharacter, toNat_ofNat valid, if_pos bounded, unitBytes_unit]

/-- A character that is a high and a low surrogate is encoded as those. -/
theorem encodeCharacter_pair {a b c d : UInt8} (isHigh : isHighSurrogate (unit a b) = true)
    (isLow : isLowSurrogate (unit c d) = true)
    : encodeCharacter (pair (unit a b) (unit c d)) = [a, b, c, d] := by
  simp only [isHighSurrogate, isLowSurrogate, Bool.and_eq_true, decide_eq_true_eq] at isHigh isLow
  have number : (pair (unit a b) (unit c d)).toNat
      = 0x10000 + (unit a b - 0xD800) * 0x400 + (unit c d - 0xDC00) := by
    refine toNat_ofNat ?_
    simp only [Nat.isValidChar]
    omega
  have high : highSurrogate (pair (unit a b) (unit c d)) = unit a b := by
    rw [highSurrogate, number]
    omega
  have low : lowSurrogate (pair (unit a b) (unit c d)) = unit c d := by
    rw [lowSurrogate, number]
    omega
  rw [encodeCharacter, if_neg (by omega), high, low, unitBytes_unit, unitBytes_unit]
  rfl

/-- Encoded text is found in front of whatever follows it. -/
theorem decodeAt_encode_append (characters : List Char) (position : Nat) (rest : Bytes)
    : decodeAt position (encode characters ++ rest)
      = (characters ++ ·) <$> decodeAt (position + (encode characters).length) rest := by
  induction characters generalizing position with
  | nil => exact (id_map _).symm
  | cons character others ih =>
      have encoded : encode (character :: others) = encodeCharacter character ++ encode others :=
        List.flatMap_cons
      rw [encoded, List.append_assoc, decodeAt_encodeCharacter_append, ih, List.length_append,
        Nat.add_assoc]
      cases decodeAt (position + _) rest <;> rfl

/-- What decoding bytes from a position comes to: the text that they encode, or a fault right behind
encoded text.
-/
def AccountsFor (data : Bytes) (position : Nat) : Except Fault (List Char) → Prop
  | .ok characters => encode characters = data
  | .error fault => ∃ characters, encode characters <+: data
      ∧ fault.position = position + (encode characters).length

/-- What is decoded behind a character accounts for the bytes with those of the character. -/
theorem AccountsFor.cons {character : Char} {spelled rest : Bytes} {position : Nat}
    {outcome : Except Fault (List Char)} (encoded : encodeCharacter character = spelled)
    (behind : AccountsFor rest (position + spelled.length) outcome)
    : AccountsFor (spelled ++ rest) position ((character :: ·) <$> outcome) := by
  have front (others : List Char) : encode (character :: others) = spelled ++ encode others := by
    rw [← encoded]
    exact List.flatMap_cons
  cases outcome with
  | ok others =>
      change encode (character :: others) = spelled ++ rest
      rw [front, show encode others = rest from behind]
  | error fault =>
      obtain ⟨others, isPrefix, reached⟩ := behind
      refine ⟨character :: others, ?_, ?_⟩
      · rw [front]
        exact (List.prefix_append_right_inj spelled).mpr isPrefix
      · rw [front, reached, List.length_append, Nat.add_assoc]

/-- Decoding accounts for the bytes. The induction follows the decoder, which goes on behind each
character that it finds and stops where there is none.
-/
theorem accountsFor_decodeAt (position : Nat) (data : Bytes)
    : AccountsFor data position (decodeAt position data) := by
  have nothingFound (fault : Fault) (position : Nat) (data : Bytes)
      (here : fault.position = position) : AccountsFor data position (.error fault) :=
    ⟨[], List.nil_prefix, here⟩
  induction position, data using decodeAt.induct with
  | case1 position => exact rfl
  | case2 position byte => exact nothingFound _ _ _ rfl
  | case3 position a b rest isLow =>
      unfold decodeAt
      rw [if_pos isLow]
      exact nothingFound _ _ _ rfl
  | case4 position a b notLow isHigh c d more isLow ih =>
      rw [decodeAt_pair isHigh (eq_false_of_ne_true notLow) isLow]
      exact .cons (encodeCharacter_pair isHigh isLow) ih
  | case5 position a b notLow isHigh c d more unpaired =>
      rw [decodeAt, if_neg notLow, if_pos isHigh, if_neg unpaired]
      exact nothingFound _ _ _ rfl
  | case6 position a b notLow isHigh short isShort =>
      rw [decodeAt.eq_4 position a b short isShort, if_neg notLow, if_pos isHigh]
      exact nothingFound _ _ _ rfl
  | case7 position a b rest notLow notHigh ih =>
      have notLow := eq_false_of_ne_true notLow
      have notHigh := eq_false_of_ne_true notHigh
      rw [decodeAt_unit notHigh notLow]
      exact .cons (encodeCharacter_unit notHigh notLow) ih

/-- Bytes are decoded to a text just if they encode it. -/
theorem decode_eq_ok_iff {data : Bytes} {characters : List Char}
    : decode data = .ok characters ↔ data = encode characters := by
  constructor
  · intro decoded
    have account := accountsFor_decodeAt 0 data
    rw [← decode, decoded] at account
    exact account.symm
  · rintro rfl
    exact decode_encode characters

/-- The longest text in two-byte units that bytes start with ends behind some of them. -/
structure EndsText (data : Bytes) (length : Nat) : Prop where
  ends : ∃ characters, encode characters <+: data ∧ (encode characters).length = length
  longest : ∀ characters, encode characters <+: data → (encode characters).length ≤ length

/-- A fault is where the longest text ends. Any text in front of it would be decoded first. -/
theorem endsText_of_decode {data : Bytes} {fault : Fault} (failed : decode data = .error fault)
    : EndsText data fault.position := by
  constructor
  · have account := accountsFor_decodeAt 0 data
    rw [← decode, failed] at account
    obtain ⟨characters, isPrefix, reached⟩ := account
    exact ⟨characters, isPrefix, by omega⟩
  · rintro characters ⟨rest, rfl⟩
    rw [decode, decodeAt_encode_append, Nat.zero_add] at failed
    have account := accountsFor_decodeAt (encode characters).length rest
    cases decoded : decodeAt (encode characters).length rest with
    | ok others =>
        rw [decoded] at failed
        cases failed
    | error own =>
        rw [decoded] at failed account
        cases failed
        obtain ⟨others, -, reached⟩ := account
        omega

/-- A character in front of a high surrogate that nothing follows. -/
example : decode [0x00, 0x41, 0xD8, 0x3D] = .error (.openHigh 2 3) := by cbv

/-- The message about a fault names its position. -/
theorem Fault.message_position (fault : Fault)
    : ∃ subject last reason, fault.message
        = "'utf-16-be' codec can't decode " ++ subject ++ " in position "
          ++ toString fault.position ++ last ++ ": " ++ reason
      ∧ (last = "" ∨ ∃ stop : Nat, last = "-" ++ toString stop) := by
  have bytes : "'utf-16-be' codec can't decode bytes in position "
      = "'utf-16-be' codec can't decode " ++ "bytes" ++ " in position " := by decide
  have spanned (first last : Nat) (reason : String)
      : message.span first last reason
        = "'utf-16-be' codec can't decode " ++ "bytes" ++ " in position " ++ toString first
          ++ ("-" ++ toString last) ++ ": " ++ reason := by
    unfold message.span
    rw [bytes]
    simp only [String.append_assoc]
  cases fault with
  | oddByte byte position =>
      have single : "'utf-16-be' codec can't decode byte 0x"
          = "'utf-16-be' codec can't decode " ++ "byte 0x" := by decide
      have ending : ": truncated data" = "" ++ (": " ++ "truncated data") := by decide
      have here : (oddByte byte position).position = position := rfl
      refine ⟨"byte 0x" ++ hex 2 byte.toNat, "", "truncated data", ?_, .inl rfl⟩
      unfold message
      rw [single, ending, here]
      simp only [String.append_assoc]
  | strayLow position => exact ⟨_, _, _, spanned _ _ _, .inr ⟨_, rfl⟩⟩
  | unpairedHigh position => exact ⟨_, _, _, spanned _ _ _, .inr ⟨_, rfl⟩⟩
  | openHigh position last => exact ⟨_, _, _, spanned _ _ _, .inr ⟨_, rfl⟩⟩

end DiscVolume.Text.Utf16
