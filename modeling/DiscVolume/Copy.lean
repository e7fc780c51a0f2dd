import DiscVolume.Failure

/-! Copying in blocks from an input that delivers bytes on request. -/

namespace DiscVolume

/-- How a copy ended: the bytes written, the cause if it failed, and the input afterwards. -/
structure Copied (τ : Type) where
  written : Bytes
  failure : Option Failure
  input : τ

/-- (copyBlocks read write blockSize left input) copies the bytes left in blocks of a size, the
last of them smaller if need be. Each block must come in full. Blocks of no bytes would never
get on and are refused. Where the input is read from the very file that is written, writing a
block changes the input.
-/
def copyBlocks (read : Int → EStateM Failure τ Bytes) (write : Bytes → τ → τ) (blockSize : Int)
    (left : Nat) (input : τ) : Copied τ :=
  if left = 0 then ⟨[], none, input⟩
  else
    -- A negative block size asks for all there is, which then has the wrong size.
    let block := min (left : Int) blockSize
    if block = 0 then ⟨[], some (.internal .emptyBlock), input⟩
    else
      match read block input with
      | .error failure after => ⟨[], some failure, after⟩
      | .ok data after =>
          if (data.length : Int) = block then
            let rest := copyBlocks read write blockSize (left - data.length) (write data after)
            { rest with written := data ++ rest.written }
          else ⟨[], some (.truncated (.copy block data.length)), after⟩
termination_by left

end DiscVolume
