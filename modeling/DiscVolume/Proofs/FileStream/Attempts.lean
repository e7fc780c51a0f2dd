import DiscVolume.Proofs.FileStream.Keeping
import DiscVolume.Proofs.FileStream.Portions
import DiscVolume.Proofs.Medium.Alike

/-! Reading from a source that cannot be relied on. Whatever it answers, a reading either delivers
all that it has promised and moves the stream past it, or it fails and leaves everything as it was:
the stream, and the buffer that it was to fill.
-/

namespace DiscVolume

open Access Sequencing

namespace FileStream

variable {stream : FileStream σ} {source : Source σ} {runs : List ByteRun}

-----------------------------------------------------------------------------------------
-- Readings
-----------------------------------------------------------------------------------------

/-- Reads into the buffer at hand. Its front is overwritten when bytes have been delivered, and not
before.
-/
def fill : EStateM Failure (Bytes × FileStream σ × σ) Nat := do
  let stream ← beside opened
  let buffer := (← get).1
  let data ← beside (stream.deliver (min stream.remaining buffer.length))
  modify fun state => (data ++ state.1.drop data.length, state.2)
  return data.length

/-- To fill the buffer at hand is to replace it by what is read into a copy of it. -/
theorem fill_eq (buffer : Bytes) (state : FileStream σ × σ)
    : fill (buffer, state)
      = match readInto buffer state with
        | .ok (count, filled) after => .ok count (filled, after)
        | .error failure after => .error failure (buffer, after) := by
  cases isOpen : state.1.isOpen with
  | false =>
      have refused := opened_of_closed isOpen
      rw [fill, bind_of_error (beside_of_error refused), readInto, bind_of_error refused]
  | true =>
      have start := opened_of_open isOpen
      have looked : (get : EStateM Failure (Bytes × FileStream σ × σ) _) (buffer, state)
          = .ok (buffer, state) (buffer, state) := rfl
      rw [fill, bind_of_ok (beside_of_ok start), bind_of_ok looked, readInto, bind_of_ok start]
      cases delivered : state.1.deliver (min state.1.remaining buffer.length) state with
      | ok data after =>
          rw [bind_of_ok (beside_of_ok delivered), bind_of_ok delivered]
          rfl
      | error failure after =>
          rw [bind_of_error (beside_of_error delivered), bind_of_error delivered]

/-- The ways of reading bytes: a number of them at most, all that are left, or into a buffer. -/
inductive Reading where
  | read (size : Option Int)
  | readAll
  | fill
  deriving DecidableEq, Repr

namespace Reading

/-- The number of bytes that is asked for, if not all that are left. -/
def limit? (buffer : Bytes) : Reading → Option Nat
  | read none | readAll => none
  | read (some size) => if size < 0 then none else some size.toNat
  | fill => some buffer.length

/-- The number of bytes that a reading promises: no more than it asks for, and than are left. -/
def count (buffer : Bytes) (stream : FileStream σ) (reading : Reading) : Nat :=
  match reading.limit? buffer with
  | none => stream.remaining
  | some most => min stream.remaining most

/-- What is answered when some bytes have been delivered. -/
def reply (data : Bytes) : Reading → Reply
  | read _ | readAll => .bytes data
  | fill => .number data.length

/-- What becomes of the buffer at hand when some bytes have been delivered. -/
def overwrite (data buffer : Bytes) : Reading → Bytes
  | read _ | readAll => buffer
  | fill => data ++ buffer.drop data.length

/-- A reading of a stream, with a buffer at hand. -/
def run : Reading → EStateM Failure (Bytes × FileStream σ × σ) Reply
  | read size => beside (perform (.read size))
  | readAll => beside (perform .readAll)
  | fill => do return .number (← FileStream.fill)

variable {buffer : Bytes} {state : FileStream σ × σ}

theorem count_le_remaining (reading : Reading) (buffer : Bytes) (stream : FileStream σ)
    : reading.count buffer stream ≤ stream.remaining := by
  rw [count]
  split
  · exact Nat.le_refl _
  · exact Nat.min_le_left ..

/-- A closed stream is not read. -/
theorem run_of_closed (isClosed : state.1.isOpen = false) (reading : Reading)
    : reading.run (buffer, state) = .error (.misused .closedStream) (buffer, state) := by
  have refused := opened_of_closed isClosed
  cases reading with
  | read | readAll => exact beside_of_error (bind_of_error (bind_of_error refused))
  | fill => exact bind_of_error (bind_of_error (beside_of_error refused))

section Open

variable (isOpen : state.1.isOpen = true)

include isOpen

theorem read_eq (size : Option Int)
    : FileStream.read size state
      = state.1.deliver ((Reading.read size).count buffer state.1) state := by
  have promised : (if size.getD (-1) < 0 then state.1.remaining
      else min state.1.remaining (size.getD (-1)).toNat)
      = (Reading.read size).count buffer state.1 := by
    cases size with
    | none => rfl
    | some size =>
        simp only [Option.getD_some, count, limit?]
        split <;> rfl
  rw [FileStream.read, bind_of_ok (opened_of_open isOpen), promised]

theorem readAll_eq
    : FileStream.readAll state = state.1.deliver (Reading.readAll.count buffer state.1) state := by
  rw [FileStream.readAll, bind_of_ok (opened_of_open isOpen)]
  rfl

/-- What is promised is delivered, and what is delivered overwrites a buffer that is to be filled.
-/
theorem run_of_ok {reading : Reading} {data : Bytes} {after : FileStream σ × σ}
    (delivered : state.1.deliver (reading.count buffer state.1) state = .ok data after)
    : reading.run (buffer, state)
      = .ok (reading.reply data) (reading.overwrite data buffer, after) := by
  cases reading with
  | read size =>
      rw [← read_eq isOpen] at delivered
      exact beside_of_ok (bind_of_ok delivered)
  | readAll =>
      rw [← readAll_eq isOpen] at delivered
      exact beside_of_ok (bind_of_ok delivered)
  | fill =>
      have found : readInto buffer state
          = .ok (data.length, data ++ buffer.drop data.length) after := by
        rw [readInto, bind_of_ok (opened_of_open isOpen)]
        exact bind_of_ok delivered
      have filled : FileStream.fill (buffer, state)
          = .ok data.length (data ++ buffer.drop data.length, after) := by
        rw [fill_eq, found]
      exact bind_of_ok filled

/-- What is not delivered does not overwrite anything. -/
theorem run_of_error {reading : Reading} {failure : Failure} {after : FileStream σ × σ}
    (failed : state.1.deliver (reading.count buffer state.1) state = .error failure after)
    : reading.run (buffer, state) = .error failure (buffer, after) := by
  cases reading with
  | read size =>
      rw [← read_eq isOpen] at failed
      exact beside_of_error (bind_of_error failed)
  | readAll =>
      rw [← readAll_eq isOpen] at failed
      exact beside_of_error (bind_of_error failed)
  | fill =>
      have missed : readInto buffer state = .error failure after := by
        rw [readInto, bind_of_ok (opened_of_open isOpen)]
        exact bind_of_error failed
      have unfilled : FileStream.fill (buffer, state) = .error failure (buffer, after) := by
        rw [fill_eq, missed]
      exact bind_of_error unfilled

end Open

end Reading

-----------------------------------------------------------------------------------------
-- Watched streams
-----------------------------------------------------------------------------------------

/-- The same stream over the same source, which is watched. -/
def watched (stream : FileStream σ) : FileStream (List Exchange × σ) where
  contents :=
    match stream.contents with
    | .recorded source runs => .recorded source.watched runs
    | .embedded data => .embedded data
  position := stream.position
  isOpen := stream.isOpen

/-- The stream behind a number of bytes. -/
def movedBy (stream : FileStream σ) (count : Nat) : FileStream σ :=
  { stream with position := stream.position + count }

theorem remaining_watched (stream : FileStream σ)
    : stream.watched.remaining = stream.remaining := by
  obtain ⟨contents, position, isOpen⟩ := stream
  cases contents <;> rfl

variable {count : Nat} {data : Bytes} {failure : Failure} {medium after : σ}

theorem deliver_of_ok
    (found : stream.contents.range stream.position.toNat count medium = .ok data after)
    : stream.deliver count (stream, medium) = .ok data (stream.movedBy count, after) := by
  have read : onMedium (stream.contents.range stream.position.toNat count) (stream, medium)
      = .ok data (stream, after) := by
    simp only [onMedium, found]
  rw [deliver, bind_of_ok read]
  rfl

theorem deliver_of_error
    (failed : stream.contents.range stream.position.toNat count medium = .error failure after)
    : stream.deliver count (stream, medium) = .error failure (stream, after) := by
  have stopped : onMedium (stream.contents.range stream.position.toNat count) (stream, medium)
      = .error failure (stream, after) := by
    simp only [onMedium, failed]
  rw [deliver, bind_of_error stopped]

/-- Bytes that are left are delivered by requests that cover them, or one of the requests is not
answered as it should and the stream stays where it is.
-/
theorem deliver_or_stop {stream : FileStream σ} (isSound : IsSound (.recorded source runs) stream)
    (left : count ≤ stream.remaining) (record : List Exchange) (medium : σ)
    : ∃ portions stop, Portion.Cover runs stream.position portions stop
        ∧ ((∃ data after, data.length = count ∧ stop = stream.position + data.length
              ∧ Amounts (portions.map Portion.exchange) (.ok data)
              ∧ stream.deliver count (stream, medium) = .ok data (stream.movedBy count, after)
              ∧ stream.watched.deliver count (stream.watched, record, medium)
                = .ok data (stream.watched.movedBy count,
                    record ++ portions.map Portion.exchange, after))
          ∨ ∃ failure after, Amounts (portions.map Portion.exchange) (.error failure)
              ∧ stream.deliver count (stream, medium) = .error failure (stream, after)
              ∧ stream.watched.deliver count (stream.watched, record, medium)
                = .error failure
                    (stream.watched, record ++ portions.map Portion.exchange, after)) := by
  obtain ⟨contents, position, isOpen⟩ := stream
  obtain ⟨rfl, position_nonneg⟩ := isSound
  obtain ⟨portions, stop, cover, makes⟩ :=
    Contents.readRuns_makes source runs position.toNat count record medium
  obtain ⟨outcome, after, amounts, found, again⟩ := makes.finds
  have place : (position.toNat : Int) = position := Int.toNat_of_nonneg position_nonneg
  rw [place] at cover
  refine ⟨portions, stop, cover, ?_⟩
  cases outcome with
  | ok data =>
      have enough : count ≤ (ByteRun.total runs - position.toNat).toNat := by
        rw [place]
        exact left
      exact .inl ⟨data, after, Contents.length_of_readRuns enough found,
        cover.areConnected.stop_eq amounts, amounts, deliver_of_ok found, deliver_of_ok again⟩
  | error failure =>
      exact .inr ⟨failure, after, amounts, deliver_of_error found, deliver_of_error again⟩

namespace Reading

/-- A reading delivers some bytes, as many as it promises: it answers with them, overwrites the
front of a buffer that is to be filled, and moves the stream behind them.
-/
def Delivers (reading : Reading) (buffer : Bytes) (stream : FileStream σ) (medium : σ)
    (data : Bytes) (after : σ) : Prop :=
  data.length = reading.count buffer stream
    ∧ reading.run (buffer, stream, medium)
      = .ok (reading.reply data)
          (reading.overwrite data buffer, stream.movedBy data.length, after)

/-- A reading fails, and leaves the stream and the buffer as they were. -/
def Fails (reading : Reading) (buffer : Bytes) (stream : FileStream σ) (medium : σ)
    (failure : Failure) (after : σ) : Prop :=
  reading.run (buffer, stream, medium) = .error failure (buffer, stream, after)

/-- A stream that can be reached over runs of a source delivers all that a reading promises, or the
reading fails and changes nothing, whatever the source answers. It fails because the last answer is
of another size than was asked for, with the failure of the source itself, or because the stream is
closed. The requests are those that a watched source records: portions of the runs that cover what
is behind the position, up to the new position where the bytes are delivered.
-/
theorem run_all_or_nothing {stream : FileStream σ} (lengths : ∀ run ∈ runs, 0 ≤ run.length)
    (reached : Reached source runs stream) (reading : Reading) (buffer : Bytes)
    (record : List Exchange) (medium : σ)
    : ∃ portions stop, Portion.Cover runs stream.position portions stop
        ∧ ((∃ data after, stop = stream.position + data.length
              ∧ Amounts (portions.map Portion.exchange) (.ok data)
              ∧ reading.Delivers buffer stream medium data after
              ∧ reading.Delivers buffer stream.watched (record, medium) data
                  (record ++ portions.map Portion.exchange, after))
          ∨ ∃ failure after,
              (stream.isOpen = true ∧ Amounts (portions.map Portion.exchange) (.error failure)
                ∨ stream.isOpen = false ∧ portions = [] ∧ failure = .misused .closedStream)
              ∧ reading.Fails buffer stream medium failure after
              ∧ reading.Fails buffer stream.watched (record, medium) failure
                  (record ++ portions.map Portion.exchange, after)) := by
  cases isOpen : stream.isOpen with
  | false =>
      refine ⟨[], stream.position, .nothing .., .inr ⟨_, medium, .inr ⟨rfl, rfl, rfl⟩, ?_, ?_⟩⟩
      · exact run_of_closed isOpen reading
      · rw [List.map_nil, List.append_nil]
        exact run_of_closed isOpen reading
  | true =>
      have counted : reading.count buffer stream.watched = reading.count buffer stream := by
        rw [count, count, remaining_watched]
      obtain ⟨portions, stop, cover, ended⟩ := deliver_or_stop (reached.isSound lengths)
        (reading.count_le_remaining buffer stream) record medium
      refine ⟨portions, stop, cover, ended.imp ?_ ?_⟩
      · rintro ⟨data, after, length, stop_eq, amounts, delivered, again⟩
        refine ⟨data, after, stop_eq, amounts, ⟨length, ?_⟩, length.trans counted.symm, ?_⟩
        · rw [length]
          exact run_of_ok isOpen delivered
        · rw [← counted] at again
          rw [length, ← counted]
          exact run_of_ok isOpen again
      · rintro ⟨failure, after, amounts, failed, again⟩
        rw [← counted] at again
        exact ⟨failure, after, .inl ⟨rfl, amounts⟩, run_of_error isOpen failed,
          run_of_error isOpen again⟩

/-- A source that gives a single byte as its third answer. -/
def faltering : Source Nat where
  readAt _ length := fun answers =>
    .ok (.replicate (if answers = 2 then 1 else length) 9) (answers + 1)
  capacity := 13

def falteringRuns : List ByteRun := [⟨0, 2⟩, ⟨10, 3⟩]

/-- A stream over the two runs, after one byte of the first of them has been read. -/
def falteringStream : FileStream Nat where
  contents := .recorded faltering falteringRuns
  position := 1

/-- The rest of the first run is delivered and one byte of the three of the second. None of this can
be seen in the buffer or in the stream.
-/
theorem run_all_or_nothing_faltering
    : (∀ run ∈ falteringRuns, 0 ≤ run.length)
      ∧ Reached faltering falteringRuns falteringStream
      ∧ fill.Fails [7, 7, 7, 7, 7] falteringStream 1 (.truncated (.medium 3 10 1)) 3
      ∧ ∃ portions stop, Portion.Cover falteringRuns 1 portions stop
          ∧ portions.map Portion.exchange = [⟨1, 1, .ok [9]⟩, ⟨10, 3, .ok [9]⟩]
          ∧ Amounts (portions.map Portion.exchange) (.error (.truncated (.medium 3 10 1))) := by
  have lengths : ∀ run ∈ falteringRuns, 0 ≤ run.length := by decide
  have found : perform (.read (some 1)) ({ contents := .recorded faltering falteringRuns }, 0)
      = .ok (.bytes [9]) (falteringStream, 1) := by
    rfl
  have reached : Reached faltering falteringRuns falteringStream := .answered .fresh found
  have stopped : fill.Fails [7, 7, 7, 7, 7] falteringStream 1 (.truncated (.medium 3 10 1)) 3 := by
    rfl
  have again : fill.Fails [7, 7, 7, 7, 7] falteringStream.watched ([], 1)
      (.truncated (.medium 3 10 1)) ([⟨1, 1, .ok [9]⟩, ⟨10, 3, .ok [9]⟩], 3) := by
    rfl
  refine ⟨lengths, reached, stopped, ?_⟩
  obtain ⟨portions, stop, cover, ended⟩ :=
    run_all_or_nothing lengths reached fill [7, 7, 7, 7, 7] [] 1
  obtain ⟨_, _, -, -, ⟨-, delivered⟩, -⟩ | ⟨_, _, amounts, failed, recorded⟩ := ended
  · cases stopped.symm.trans delivered
  · cases stopped.symm.trans failed
    obtain ⟨-, exchanged⟩ := EStateM.Result.error.inj (again.symm.trans recorded)
    obtain ⟨-, amounts⟩ | ⟨isClosed, -⟩ := amounts
    · exact ⟨portions, stop, cover, by simpa using exchanged.symm, amounts⟩
    · cases isClosed

end Reading

end FileStream

end DiscVolume
