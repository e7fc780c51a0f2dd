import DiscVolume.FileStream

/-! A tape is what a stream stands for: plain bytes, a position among or behind them, and whether
it is still open. It answers the same commands as a stream, without extents and without a medium.
-/

namespace DiscVolume

open FileStream (Displacement Reply Request)

/-- Bytes to be played back, and the position of the next one, which may lie past the end. -/
structure Tape where
  contents : Bytes
  position : Nat := 0
  isOpen : Bool := true
  deriving DecidableEq, Repr

namespace Tape

inductive Command where
  | read (size : Option Int)
  | readAll
  | readInto (buffer : Bytes)
  | seek (displacement : Displacement) (origin : Int)
  | tell
  | length
  | close
  deriving DecidableEq, Repr

/-- The request that a command makes of a stream. -/
def Command.request : Command → Request
  | read size => .read size
  | readAll => .readAll
  | readInto buffer => .readInto buffer
  | seek displacement origin => .seek displacement origin
  | tell => .tell
  | length => .length
  | close => .close

/-- The bytes from the position on, none when it lies past the end. -/
def rest (tape : Tape) : Bytes := tape.contents.drop tape.position

/-- The bytes that a read of some size delivers: all that are left when no size or a negative one
is given.
-/
def delivery (tape : Tape) : Option Int → Bytes
  | none => tape.rest
  | some size => if size < 0 then tape.rest else tape.rest.take size.toNat

/-- The tape moved on by the bytes delivered. -/
def after (tape : Tape) (data : Bytes) : Tape :=
  { tape with position := tape.position + data.length }

/-- The place that displacements from an origin count from: the start, the position or the end. -/
def base? (tape : Tape) (origin : Int) : Option Nat :=
  if origin = 0 then some 0
  else if origin = 1 then some tape.position
  else if origin = 2 then some tape.contents.length
  else none

/-- The position that a displacement leads to, which is refused just when the displacement is no
whole number, the origin is unknown or the position would be negative.
-/
def target (tape : Tape) : Displacement → Int → Except Misuse Nat
  | .fractional, _ => .error .fractionalOffset
  | .whole bytes, origin =>
      match tape.base? origin with
      | none => .error .unknownOrigin
      | some base =>
          if base + bytes < 0 then
            .error (if origin = 0 then .negativeOffset else .offsetBeforeStart)
          else .ok (base + bytes).toNat

/-- What an open tape answers, and what becomes of it. -/
def obey (tape : Tape) : Command → Except Failure Reply × Tape
  | .read size => (.ok (.bytes (tape.delivery size)), tape.after (tape.delivery size))
  | .readAll => (.ok (.bytes tape.rest), tape.after tape.rest)
  | .readInto buffer =>
      let data := tape.rest.take buffer.length
      (.ok (.filled data.length (data ++ buffer.drop data.length)), tape.after data)
  | .seek displacement origin =>
      match tape.target displacement origin with
      | .ok position => (.ok (.number position), { tape with position })
      | .error misuse => (.error (.misused misuse), tape)
  | .tell => (.ok (.number tape.position), tape)
  | .length => (.ok (.number tape.contents.length), tape)
  | .close => (.ok .nothing, { tape with isOpen := false })

/-- What a tape answers, and what becomes of it. Closed, it only lets itself be closed again. -/
def step (tape : Tape) (command : Command) : Except Failure Reply × Tape :=
  if tape.isOpen ∨ command = .close then tape.obey command
  else (.error (.misused .closedStream), tape)

/-- What can be seen of a step: its answer, the position after it and whether it is still open. -/
structure Sight where
  answer : Except Failure Reply
  position : Int
  isOpen : Bool

/-- What can be seen while commands are carried out, whether or not they fail. -/
def sights (tape : Tape) : List Command → List Sight
  | [] => []
  | command :: others =>
      let (answer, next) := tape.step command
      ⟨answer, next.position, next.isOpen⟩ :: next.sights others

end Tape

namespace FileStream

/-- What a stream answers, and what becomes of it and of its medium. -/
def step (state : FileStream σ × σ) (command : Tape.Command)
    : Except Failure Reply × FileStream σ × σ :=
  match perform command.request state with
  | .ok reply after => (.ok reply, after)
  | .error failure after => (.error failure, after)

/-- What can be seen of a stream while commands are carried out, whether or not they fail. -/
def sights (state : FileStream σ × σ) : List Tape.Command → List Tape.Sight
  | [] => []
  | command :: others =>
      let (answer, next) := step state command
      ⟨answer, next.1.position, next.1.isOpen⟩ :: sights next others

end FileStream

end DiscVolume
