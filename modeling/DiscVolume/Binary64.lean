/-! Binary floating point with 53 significant bits (IEEE 754 binary64). Numbers are exact dyadic
values; an operation is the exact one, rounded to the nearest number with ties to even. What is too
large becomes infinite, and an operation without a result is undefined.
-/

namespace DiscVolume

/-- (nearestNat num den) is the whole number nearest to num / den, the even one of two. -/
def nearestNat (num den : Nat) : Nat :=
  let quotient := num / den
  let twice := 2 * (num % den)
  if twice > den || (twice == den && quotient % 2 == 1) then quotient + 1 else quotient

/-- A value of the format. Zero is a number; a zero of negative sign is told apart from it, though
it is as large.
-/
inductive Binary64 where
  | number (value : Dyadic)
  | negativeZero
  | infinite (isNegative : Bool)
  | undefined
  deriving DecidableEq

namespace Binary64

/-- Significant bits of a number. -/
def significantBits : Nat := 53

/-- Bits after the point in the smallest number. -/
def pointBits : Nat := 1074

/-- All numbers are below two to this power. -/
def exponentLimit : Nat := 1024

def zero (isNegative : Bool) : Binary64 := if isNegative then .negativeZero else .number 0

def negate : Binary64 → Binary64
  | number value => if value = 0 then negativeZero else number (-value)
  | negativeZero => number 0
  | infinite isNegative => infinite !isNegative
  | undefined => undefined

/-- (ofSize isNegative size) has a size that has been rounded to the significant bits. -/
def ofSize (isNegative : Bool) (size : Dyadic) : Binary64 :=
  if size = 0 then zero isNegative
  else if .ofInt (1 <<< exponentLimit) ≤ size then infinite isNegative
  else number (if isNegative then -size else size)

/-- The value nearest to an exact number. -/
def round : Dyadic → Binary64
  | .zero => number 0
  | .ofOdd numerator places _ =>
      let excess := numerator.natAbs.log2 + 1 - significantBits
      let dropped := max excess (places - pointBits).toNat
      ofSize (numerator < 0)
        (.ofIntWithPrec (nearestNat numerator.natAbs (1 <<< dropped)) (places - dropped))

/-- (ofRatio isNegative num den) is the value nearest to a positive num / den, with a sign. -/
def ofRatio (isNegative : Bool) (num den : Nat) : Binary64 :=
  let scaled (bits : Int) : Nat × Nat := (num <<< bits.toNat, den <<< (-bits).toNat)
  let guess : Int := significantBits - 1 - ((num.log2 : Int) - den.log2)
  -- The lengths of both numbers give the leading place up to one.
  let (top, bottom) := scaled guess
  let bits := if top / bottom < 1 <<< (significantBits - 1) then guess + 1 else guess
  -- The smallest numbers have fewer significant bits.
  let bits := min bits pointBits
  let (top, bottom) := scaled bits
  ofSize isNegative (.ofIntWithPrec (nearestNat top bottom) bits)

def powerOfTen (exponent : Nat) : Nat := Nat.pow 10 exponent

/-- Decimals from this power of ten on are infinite. -/
def largestPower : Int := 310

/-- Decimals below this power of ten are zero. -/
def smallestPower : Int := -330

/-- The value nearest to digits / 10 ^ places, with a sign. -/
def ofDecimal (isNegative : Bool) (digits : Nat) (places : Int) : Binary64 :=
  let power : Int := (Nat.toDigits 10 digits).length - places
  if digits = 0 ∨ power < smallestPower then zero isNegative
  else if largestPower < power then infinite isNegative
  else ofRatio isNegative (digits * powerOfTen (-places).toNat) (powerOfTen places.toNat)

/-- Opposite infinities have no sum. The sum of two zeros is negative if both are. -/
def add : Binary64 → Binary64 → Binary64
  | undefined, _ | _, undefined => undefined
  | infinite a, infinite b => if a = b then infinite a else undefined
  | infinite a, _ | _, infinite a => infinite a
  | negativeZero, other | other, negativeZero => other
  | number a, number b => round (a + b)

instance : Add Binary64 := ⟨add⟩

instance : Neg Binary64 := ⟨negate⟩

instance : Sub Binary64 := ⟨fun a b => a + -b⟩

/-- Numerator and denominator of the size of a dyadic number. -/
def sizeRatio : Dyadic → Nat × Nat
  | .zero => (0, 1)
  | .ofOdd numerator places _ =>
      (numerator.natAbs <<< (-places).toNat, 1 <<< places.toNat)

/-- (leadingPlace num den limit) counts the places from the point to the leading digit of a
number below 1, up to a limit.
-/
def leadingPlace (num den : Nat) : (limit : Nat) → Nat
  | 0 => 0
  | limit + 1 => if den ≤ num then 0 else leadingPlace (num * 10) den limit + 1

/-- The digits and the number of decimal places of the shortest decimal that rounds to a positive
num / den, found by trying grids of one digit more at a time. Of two decimals on the first grid
that has one, the nearer is taken, and the even one where both are as near.
-/
def shortest (num den : Nat) : (count : Nat) → (tries : Nat) → Nat × Int
  | count, 0 => (num / den, count)
  | count, tries + 1 =>
      let exponent : Int :=
        if den ≤ num then ((Nat.toDigits 10 (num / den)).length : Int) - 1
        else -(leadingPlace num den 400 : Int)
      let places : Int := count - 1 - exponent
      let top := num * powerOfTen places.toNat
      let bottom := den * powerOfTen (-places).toNat
      let below := top / bottom
      let hits (digits : Nat) : Bool :=
        ofDecimal false digits places = ofRatio false num den
      let nearer := nearestNat top bottom
      let other := if nearer = below then below + 1 else below
      if hits nearer then (nearer, places)
      else if hits other then (other, places)
      else shortest num den (count + 1) tries

/-- Positive numbers are written positionally when the point falls between 4 places before and 16
places after the leading digit, always with a digit after the point; otherwise with an exponent
of a sign and at least two digits.
-/
def sizeText (value : Dyadic) : String :=
  let (num, den) := sizeRatio value
  let (digits, places) := shortest num den 1 17
  let written := ((Nat.toDigits 10 digits).reverse.dropWhile (· == '0')).reverse
  let point : Int := (Nat.toDigits 10 digits).length - places
  if -4 < point ∧ point ≤ 16 then
    if point ≤ 0 then
      "0." ++ String.ofList (List.replicate (-point).toNat '0' ++ written)
    else
      let head := written.take point.toNat
      let tail := written.drop point.toNat
      String.ofList (head ++ List.replicate (point.toNat - head.length) '0') ++ "."
        ++ String.ofList (if tail.isEmpty then ['0'] else tail)
  else
    let exponent := point - 1
    let size := toString exponent.natAbs
    let tail := written.drop 1
    String.ofList (written.take 1)
      ++ (if tail.isEmpty then "" else "." ++ String.ofList tail)
      ++ (if exponent < 0 then "e-" else "e+")
      ++ (if exponent.natAbs < 10 then "0" ++ size else size)

def text : Binary64 → String
  | number value =>
      if value = 0 then "0.0"
      else (if value < 0 then "-" else "") ++ sizeText value
  | negativeZero => "-0.0"
  | infinite isNegative => if isNegative then "-inf" else "inf"
  | undefined => "nan"

/-- Nothing is left of a value less itself, unless there is no telling. -/
theorem sub_self_eq (a : Binary64) : a - a = number 0 ∨ a - a = undefined := by
  change add a (negate a) = _ ∨ add a (negate a) = _
  cases a with
  | number value =>
      by_cases h : value = 0
      · simp [negate, add, h]
      · have cancelled : value + -value = 0 := by grind
        left
        simp only [negate, h, if_false, add, cancelled]
        rfl
  | negativeZero => exact Or.inl rfl
  | infinite isNegative => cases isNegative <;> exact Or.inr rfl
  | undefined => exact Or.inr rfl

end Binary64

end DiscVolume
