import DiscVolume.Medium

/-! Sources that do not answer as they should: with more or fewer bytes than were asked for, and
with faults in some places.
-/

namespace DiscVolume

/-- The places from low to just below high, where a medium reports a fault. -/
structure FlawedRange where
  low : Int
  high : Int
  fault : MediumFault
  deriving DecidableEq, Repr

/-- Whether a request for bytes at an offset touches a range. -/
def FlawedRange.isTouched (range : FlawedRange) (offset : Int) (length : Nat) : Bool :=
  range.low < offset + length && offset < range.high

/-- A source over packed contents that reports the fault of the first range that a request touches,
and otherwise answers with a number of bytes too many, or too few if the number is negative.
-/
def Source.ofFlawed (contents : ByteArray) (extra : Int) (flaws : List FlawedRange)
    : Source σ where
  readAt offset length :=
    match flaws.find? (·.isTouched offset length) with
    | some range => throw (.medium range.fault)
    | none => pure (sliceBetween contents offset (offset + length + extra))
  capacity := contents.size

end DiscVolume
