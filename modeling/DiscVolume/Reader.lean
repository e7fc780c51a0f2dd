import DiscVolume.Survey

/-! A reader holds at most one open volume. Every request but opening needs one, and opening
needs that there is none. A failed opening leaves the reader without a volume, as a new one.
-/

namespace DiscVolume

structure Reader (σ : Type) where
  volume : Option (Volume σ) := none

/-- A step on a reader over a medium. -/
abbrev Using (σ : Type) := EStateM Failure (Reader σ × σ)

namespace Reader

/-- A step on the medium alone. -/
def onMedium (step : Access σ α) : Using σ α := fun (reader, medium) =>
  match step medium with
  | .ok value after => .ok value (reader, after)
  | .error failure after => .error failure (reader, after)

/-- Puts a volume into the reader, or takes it out. -/
def hold (volume : Option (Volume σ)) : Using σ Unit :=
  modify fun (_, medium) => ({ volume }, medium)

/-- The open volume, which there must be. -/
def opened : Using σ (Volume σ) := do
  match (← get).1.volume with
  | some volume => pure volume
  | none => throw (.misused .notOpen)

/-- Opens an image in a reader that has none. -/
def openImage (supply : Supply σ) : Using σ Unit := do
  match (← get).1.volume with
  | some _ => throw (.misused .alreadyOpen)
  | none => do
      let volume ← onMedium (Volume.ofSupply supply)
      hold (some volume)

/-- Opens an image in a new reader, which takes the place of this one if that succeeds. -/
def reopen (supply : Supply σ) : Using σ Unit := do
  let volume ← onMedium (Volume.ofSupply supply)
  hold (some volume)

def close : Using σ Unit := do
  let _ ← opened
  hold none

/-- The absolute sector of a block of the partition, which may be counted from before it. -/
def absoluteSector (block : Int) : Using σ Int := do
  return (← opened).partition.startLocation.toNat + block

/-- The absolute offset of the first byte of a block. -/
def absoluteOffset (block : Int) : Using σ Int := do
  return sectorSize * (← absoluteSector block)

def root : Using σ Entry := do
  let volume ← opened
  onMedium volume.root

def readDirectory (parent : Entry) : Using σ (List Entry) := do
  let volume ← opened
  onMedium (volume.readDirectory parent)

def openFile (entry : Entry) : Using σ (FileStream σ) := do
  let volume ← opened
  match volume.openFile entry with
  | .ok stream => pure stream
  | .error failure => throw failure

def lookup (path : String) : Using σ Entry := do
  let volume ← opened
  onMedium (volume.lookup path)

def survey (limit : Nat) : Using σ (List Finding) := do
  let volume ← opened
  onMedium (volume.survey limit)

end Reader

end DiscVolume
