/-! Bitwise operations on integers of any size and either sign. An integer stands for its two's
complement bits, which go on without end: zeros above a non-negative number and ones above a
negative one.
-/

namespace DiscVolume.Bits

/-- The bit at a place. -/
def bit (value : Int) (place : Nat) : Bool := (value >>> place) % 2 = 1

def not (value : Int) : Int := -value - 1

/-- The bits of the first number that the second one does not have. -/
def without (a b : Nat) : Nat := a ^^^ (a &&& b)

def and : Int → Int → Int
  | .ofNat a, .ofNat b => .ofNat (a &&& b)
  | .ofNat a, .negSucc b => .ofNat (without a b)
  | .negSucc a, .ofNat b => .ofNat (without b a)
  | .negSucc a, .negSucc b => .negSucc (a ||| b)

def or : Int → Int → Int
  | .ofNat a, .ofNat b => .ofNat (a ||| b)
  | .ofNat a, .negSucc b => .negSucc (without b a)
  | .negSucc a, .ofNat b => .negSucc (without a b)
  | .negSucc a, .negSucc b => .negSucc (a &&& b)

/-- The bits moved up by a number of places. -/
def up (value : Int) (places : Nat) : Int := value <<< places

/-- The bits moved down by a number of places. -/
def down (value : Int) (places : Nat) : Int := value >>> places

end DiscVolume.Bits
