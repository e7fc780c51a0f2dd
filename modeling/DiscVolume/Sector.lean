/-! The geometry of a disk image: sectors, and whole numbers of them. -/

namespace DiscVolume

/-- The number of bytes of a sector, which is also the size of a logical block. -/
def sectorSize : Nat := 2048

/-- The sector where the volume recognition sequence starts. -/
def recognitionSector : Nat := 16

/-- The sector of the anchor volume descriptor pointer. -/
def anchorSector : Nat := 256

/-- The number of sectors that a number of bytes takes up. -/
def sectorsFor (bytes : Nat) : Nat := (bytes + (sectorSize - 1)) / sectorSize

/-- A division that has no quotient. -/
inductive DivisionFault where
  | byZero
  deriving DecidableEq, Repr

def DivisionFault.message : DivisionFault → String
  | .byZero => "integer division or modulo by zero"

/-- The least whole number that is not below a quotient. -/
def ceilingDiv (numerator denominator : Int) : Except DivisionFault Int :=
  if denominator = 0 then .error .byZero else .ok (-(Int.fdiv (-numerator) denominator))

/-- The number of bytes from a position up to the next multiple of 4. -/
def padding (position : Int) : Int := 4 * Int.fdiv (position + 3) 4 - position

end DiscVolume
