import DiscVolume.Binary64

/-! Clock readings and spans of time in seconds. A value is a whole number of any size or one of
binary floating point. Whole numbers add up exactly, and comparison never rounds; but where a
whole number meets one of floating point in a sum, it must not be too large for that.
-/

namespace DiscVolume

/-- A clock reading or a span of time. -/
inductive Seconds where
  | whole (count : Int)
  | fraction (value : Binary64)
  deriving DecidableEq

/-- Why there is no telling a time. -/
inductive ClockFault where
  /-- A whole number has no value in floating point. -/
  | tooLarge
  deriving DecidableEq, Repr

def ClockFault.message : ClockFault → String
  | .tooLarge => "int too large to convert to float"

/-- A place on the line of exact numbers with an infinity at both ends. -/
inductive Place where
  | lowest
  | finite (value : Dyadic)
  | highest
  deriving DecidableEq

/-- Whether the first place comes before the second. -/
def Place.isBefore : Place → Place → Bool
  | .finite a, .finite b => a < b
  | .lowest, .finite _ | .lowest, .highest | .finite _, .highest => true
  | .lowest, .lowest | .highest, _ | .finite _, .lowest => false

namespace Seconds

instance : OfNat Seconds n := ⟨whole n⟩

/-- Where a value lies on the line; an undefined one lies nowhere. -/
def place? : Seconds → Option Place
  | whole count => some (.finite (.ofInt count))
  | fraction (.number value) => some (.finite value)
  | fraction .negativeZero => some (.finite 0)
  | fraction (.infinite isNegative) => some (if isNegative then .lowest else .highest)
  | fraction .undefined => none

/-- A value in floating point; some whole numbers are too large to have one. -/
def rounded : Seconds → Except ClockFault Binary64
  | whole count =>
      match Binary64.round (.ofInt count) with
      | .infinite _ => .error .tooLarge
      | value => .ok value
  | fraction value => .ok value

/-- The sum of two values. -/
def plus : Seconds → Seconds → Except ClockFault Seconds
  | whole a, whole b => .ok (whole (a + b))
  | a, b => do return fraction ((← a.rounded) + (← b.rounded))

/-- The difference of two values. -/
def minus : Seconds → Seconds → Except ClockFault Seconds
  | whole a, whole b => .ok (whole (a - b))
  | a, b => do return fraction ((← a.rounded) - (← b.rounded))

/-- Whether a span is other than zero. -/
def isSet (span : Seconds) : Bool := span.place? ≠ some (.finite 0)

/-- Whether two spans are of one length, however they were given. -/
def same (a b : Seconds) : Bool := a.place?.isSome && a.place? = b.place?

/-- Whether the first span is longer. Nothing is longer or shorter than an undefined one. -/
def exceeds (a b : Seconds) : Bool :=
  match a.place?, b.place? with
  | some a, some b => b.isBefore a
  | _, _ => false

/-- Whole numbers are written plainly and fractions in their shortest form. -/
def text : Seconds → String
  | whole count => toString count
  | fraction value => value.text

/-- No time passes between equal readings, as far as can be told. -/
theorem minus_self (a : Seconds)
    : ∃ span, a.minus a = .ok span ∧ (span.place? = some (.finite 0) ∨ span.place? = none) := by
  cases a with
  | whole count => exact ⟨whole 0, by simp [minus], Or.inl rfl⟩
  | fraction value =>
      refine ⟨fraction (value - value), rfl, ?_⟩
      rcases value.sub_self_eq with h | h <;> simp [h, place?]

/-- The number that digits spell. -/
def digitsValue (digits : List Char) : Nat :=
  digits.foldl (fun value digit => 10 * value + (digit.toNat - '0'.toNat)) 0

/-- The exponent that may end a numeral. -/
def exponentOf? : List Char → Option Int
  | [] => some 0
  | mark :: rest =>
      if mark ≠ 'e' ∧ mark ≠ 'E' then none
      else
        match rest with
        | '+' :: digits => some (digitsValue digits)
        | '-' :: digits => some (-(digitsValue digits : Int))
        | digits => some (digitsValue digits)

/-- The value of a numeral without its sign. It is whole if it has neither point nor exponent. -/
def ofUnsigned? (isNegative : Bool) (numeral : List Char) : Option Seconds :=
  let digits := numeral.takeWhile Char.isDigit
  match numeral.dropWhile Char.isDigit with
  | [] => some (whole (if isNegative then -(digitsValue digits : Int) else digitsValue digits))
  | '.' :: rest => do
      let places := rest.takeWhile Char.isDigit
      let exponent ← exponentOf? (rest.dropWhile Char.isDigit)
      return fraction
        (.ofDecimal isNegative (digitsValue (digits ++ places)) (places.length - exponent))
  | rest =>
      if numeral = "Infinity".toList then some (fraction (.infinite isNegative))
      else if numeral = "NaN".toList then some (fraction .undefined)
      else do
        let exponent ← exponentOf? rest
        return fraction (.ofDecimal isNegative (digitsValue digits) (-exponent))

/-- The value that a decimal numeral stands for. -/
def ofNumeral? (numeral : String) : Option Seconds :=
  match numeral.toList with
  | '-' :: rest => ofUnsigned? true rest
  | rest => ofUnsigned? false rest

end Seconds

end DiscVolume
