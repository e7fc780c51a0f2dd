import DiscVolume.Medium

/-! Streams over the contents of a file: the concatenation of runs of bytes on a medium, or data
embedded in a file entry. A read that fails leaves the stream as it was.
-/

namespace DiscVolume

/-- A run of bytes on a medium. One of negative length sets back the runs after it, so that some
of their first bytes are passed over.
-/
structure ByteRun where
  offset : Int
  length : Int
  deriving DecidableEq, Repr

/-- What a stream plays back. -/
inductive Contents (σ : Type) where
  | recorded (source : Source σ) (runs : List ByteRun)
  | embedded (data : Bytes)

namespace Contents

def length : Contents σ → Int
  | .recorded _ runs => runs.foldr (fun run total => run.length + total) 0
  | .embedded data => data.length

/-- (readRuns source runs start count) reads bytes of the concatenated runs, asking only for
parts that are not empty.
-/
def readRuns (source : Source σ) : List ByteRun → (start count : Nat) → Access σ Bytes
  | [], _, _ => pure []
  | run :: others, start, count =>
      if 0 < count ∧ start < run.length then do
        -- The other runs are read from their first byte on.
        let amount := min (run.length - start).toNat count
        let data ← source.readExactly (run.offset + start) amount
        let more ← readRuns source others 0 (count - amount)
        return data ++ more
      else readRuns source others (start - run.length).toNat count

/-- The bytes of the contents from a start on. -/
def range (contents : Contents σ) (start count : Nat) : Access σ Bytes :=
  match contents with
  | .recorded source runs => readRuns source runs start count
  | .embedded data => pure ((data.drop start).take count)

end Contents

/-- Contents, the position of the next byte, which may lie past the end, and whether the stream
is still open.
-/
structure FileStream (σ : Type) where
  contents : Contents σ
  position : Int := 0
  isOpen : Bool := true

/-- A step on a stream over a medium. -/
abbrev Playing (σ : Type) := EStateM Failure (FileStream σ × σ)

namespace FileStream

/-- The state of the stream. -/
def current : Playing σ (FileStream σ) := fun state => .ok state.1 state

/-- The stream, which must be open. -/
def opened : Playing σ (FileStream σ) := do
  let stream ← current
  if stream.isOpen then return stream else throw (.misused .closedStream)

/-- Moves to a position. -/
def moveTo (position : Int) : Playing σ Unit :=
  modify fun (stream, medium) => ({ stream with position }, medium)

/-- Closes the stream, which may be closed already. -/
def close : Playing σ Unit :=
  modify fun (stream, medium) => ({ stream with isOpen := false }, medium)

/-- A step on the medium alone. -/
def onMedium (step : Access σ α) : Playing σ α := fun (stream, medium) =>
  match step medium with
  | .ok value after => .ok value (stream, after)
  | .error failure after => .error failure (stream, after)

/-- The number of bytes from the position to the end. -/
def remaining (stream : FileStream σ) : Nat := (stream.contents.length - stream.position).toNat

/-- Delivers bytes from the position on, and moves past them. -/
def deliver (stream : FileStream σ) (count : Nat) : Playing σ Bytes := do
  let data ← onMedium (stream.contents.range stream.position.toNat count)
  moveTo (stream.position + count)
  return data

/-- The rest of the contents. -/
def readAll : Playing σ Bytes := do
  let stream ← opened
  stream.deliver stream.remaining

/-- At most a number of bytes; no number or a negative one stands for all. -/
def read (size : Option Int) : Playing σ Bytes := do
  let stream ← opened
  let count := size.getD (-1)
  stream.deliver (if count < 0 then stream.remaining else min stream.remaining count.toNat)

/-- Overwrites the front of a buffer with what a read of its size delivers. The number of bytes
delivered comes with the buffer.
-/
def readInto (buffer : Bytes) : Playing σ (Nat × Bytes) := do
  let stream ← opened
  let data ← stream.deliver (min stream.remaining buffer.length)
  return (data.length, data ++ buffer.drop data.length)

/-- An offset to move by; only whole numbers of bytes are allowed. -/
inductive Displacement where
  | whole (bytes : Int)
  | fractional
  deriving DecidableEq, Repr

/-- The position that a displacement leads to. Origin 0 is the start, 1 the position and 2 the
end of the contents.
-/
def target (stream : FileStream σ) (displacement : Displacement) (origin : Int)
    : Except Misuse Int :=
  match displacement with
  | .fractional => .error .fractionalOffset
  | .whole bytes =>
      if origin = 0 then
        if bytes < 0 then .error .negativeOffset else .ok bytes
      else if origin = 1 then
        if stream.position + bytes < 0 then .error .offsetBeforeStart
        else .ok (stream.position + bytes)
      else if origin = 2 then
        if bytes < 0 ∧ stream.contents.length + bytes < 0 then .error .offsetBeforeStart
        else .ok (stream.contents.length + bytes)
      else .error .unknownOrigin

/-- Moves the position, and answers with the new one. -/
def seek (displacement : Displacement) (origin : Int) : Playing σ Int := do
  let stream ← opened
  match stream.target displacement origin with
  | .ok position => do
      moveTo position
      return position
  | .error misuse => throw (.misused misuse)

def newline : UInt8 := 10

/-- (lineWithin budget) reads byte by byte up to a newline, the end or a number of bytes. -/
def lineWithin : Nat → Playing σ Bytes
  | 0 => pure []
  | budget + 1 => do
      let data ← read (some 1)
      if data.isEmpty || data.getLast? = some newline then return data
      else do
        let more ← lineWithin budget
        return data ++ more

/-- The next line with its newline, cut at a limit unless the limit is negative. A limit of 0
asks for nothing, so it is not refused by a closed stream.
-/
def readLine (limit : Option Int) : Playing σ Bytes := do
  let limit := limit.getD (-1)
  if !isIndex limit then throw (.medium .countTooLarge)
  else if limit = 0 then return []
  else do
    let stream ← opened
    -- A line never has more bytes than are left, so a budget of those is no limit.
    lineWithin (if limit < 0 then stream.remaining else min stream.remaining limit.toNat)

/-- (linesWithin budget room) reads lines up to the end. Where there is a bound on the size of
all lines, the line that exceeds the room left under it is the last one.
-/
def linesWithin : Nat → Option Nat → Playing σ (List Bytes)
  | 0, _ => pure []
  | budget + 1, room => do
      let line ← readLine none
      if line.isEmpty then return []
      else
        match room with
        | none => do
            let others ← linesWithin budget none
            return line :: others
        | some bytes =>
            if bytes < line.length then return [line]
            else do
              let others ← linesWithin budget (some (bytes - line.length))
              return line :: others

/-- The lines of the rest of the contents, or as many as it takes to exceed a positive hint. -/
def readLines (hint : Option Int) : Playing σ (List Bytes) := do
  let hint := hint.getD 0
  let stream ← current
  if !isIndex hint then throw (.medium .countTooLarge)
  else if !stream.isOpen then throw (.medium .closedFile)
  else
    linesWithin stream.remaining (if hint ≤ 0 then none else some hint.toNat)

/-- Reads the rest and closes the stream, whether or not the reading succeeds. -/
def drain : Playing σ Bytes := fun state =>
  match read none state with
  | .ok data after => .ok data ({ after.1 with isOpen := false }, after.2)
  | .error failure after => .error failure ({ after.1 with isOpen := false }, after.2)

/-- The requests that can be made of a stream. -/
inductive Request where
  | read (size : Option Int)
  | readAll
  | readInto (buffer : Bytes)
  | readLine (limit : Option Int)
  | readLines (hint : Option Int)
  | seek (displacement : Displacement) (origin : Int)
  | tell
  | length
  | isReadable
  | isSeekable
  | isWritable
  | isClosed
  | close
  | drain
  deriving DecidableEq, Repr

/-- What a request answers. -/
inductive Reply where
  | nothing
  | flag (value : Bool)
  | number (value : Int)
  | bytes (value : Bytes)
  | filled (count : Nat) (buffer : Bytes)
  | lines (values : List Bytes)
  deriving DecidableEq, Repr

def perform (request : Request) : Playing σ Reply :=
  match request with
  | .read size => do return .bytes (← read size)
  | .readAll => do return .bytes (← readAll)
  | .readInto buffer => do
      let (count, filled) ← readInto buffer
      return .filled count filled
  | .readLine limit => do return .bytes (← readLine limit)
  | .readLines hint => do return .lines (← readLines hint)
  | .seek displacement origin => do return .number (← seek displacement origin)
  | .tell => do return .number (← opened).position
  | .length => do return .number (← opened).contents.length
  | .isReadable | .isSeekable => do
      let _ ← opened
      return .flag true
  | .isWritable => return .flag false
  | .isClosed => do return .flag !(← current).isOpen
  | .close => do
      close
      return .nothing
  | .drain => do return .bytes (← drain)

end FileStream

end DiscVolume
