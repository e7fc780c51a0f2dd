import DiscVolume.Proofs.FileStream.Tape
import DiscVolume.Proofs.Medium.Serving

/-! A stream plays like a tape. Runs of bytes on a served medium hold their concatenation, which
is all that a stream asks of its contents; so streams over runs, streams over embedded data and
tapes cannot be told apart by any sequence of commands.
-/

namespace DiscVolume

open Sequencing

/-- A run that holds bytes holds bytes of the image. Where an empty run lies does not matter. -/
structure ByteRun.IsWithin (run : ByteRun) (image : Bytes) : Prop where
  length_nonneg : 0 ≤ run.length
  offset_nonneg : 0 < run.length → 0 ≤ run.offset
  stop_le : 0 < run.length → run.offset + run.length ≤ image.length

/-- The bytes of an image that a run covers. -/
def ByteRun.bytes (run : ByteRun) (image : Bytes) : Bytes :=
  image.slice run.offset.toNat run.length.toNat

namespace ByteRun

theorem IsWithin.length_bytes {run : ByteRun} {image : Bytes} (within : run.IsWithin image)
    : ((run.bytes image).length : Int) = run.length := by
  obtain ⟨length_nonneg, offset_nonneg, stop_le⟩ := within
  by_cases empty : run.length = 0
  · simp [bytes, Bytes.slice, empty]
  · rw [bytes, Bytes.length_slice (by omega)]
    omega

end ByteRun

namespace Contents

/-- The contents are some bytes, as far as their length and the reading of their parts go. -/
structure Holds (contents : Contents σ) (data : Bytes) (ready : σ → Prop) : Prop where
  length_eq : contents.length = data.length
  range_eq : ∀ start count medium, ready medium
    → ∃ after, ready after ∧ contents.range start count medium = .ok (data.slice start count) after

/-- Embedded data hold themselves. -/
theorem holds_embedded (data : Bytes) (ready : σ → Prop)
    : (Contents.embedded data : Contents σ).Holds data ready where
  length_eq := rfl
  range_eq _ _ medium isReady := ⟨medium, isReady, rfl⟩

/-- The bytes of all runs, one run after the other. -/
def concatenation (image : Bytes) (runs : List ByteRun) : Bytes :=
  runs.flatMap (ByteRun.bytes · image)

section

variable {source : Source σ} {image : Bytes} {ready : σ → Prop} {runs : List ByteRun}

/-- Reading from runs delivers what their concatenation holds, by induction on the runs. What is
left of a request that goes beyond a run is asked of the runs behind it from their start.
-/
theorem readRuns_eq (serves : source.Serves image ready)
    (within : ∀ run ∈ runs, run.IsWithin image) (start count : Nat) (medium : σ)
    (isReady : ready medium)
    : ∃ after, ready after
        ∧ readRuns source runs start count medium
          = .ok ((concatenation image runs).slice start count) after := by
  induction runs generalizing start count medium with
  | nil =>
      refine ⟨medium, isReady, ?_⟩
      simp [readRuns, concatenation, Bytes.slice]
      rfl
  | cons run others ih =>
      have here := within run (by simp)
      have length := here.length_bytes
      have behind := ih (fun other member => within other (List.mem_cons_of_mem _ member))
      have joined : concatenation image (run :: others)
          = run.bytes image ++ concatenation image others := rfl
      rw [readRuns]
      split
      · next reached =>
          -- This run delivers what the request and its own length allow, the others the remainder.
          obtain ⟨wanted, before⟩ := reached
          obtain ⟨-, offset_nonneg, stop_le⟩ := here
          obtain ⟨amount, chosen⟩ : ∃ amount, amount = min (run.length - start).toNat count :=
            ⟨_, rfl⟩
          have place : run.offset + start = ((run.offset.toNat + start : Nat) : Int) := by omega
          have inside : run.offset.toNat + start + amount ≤ image.length := by omega
          have part : (run.bytes image).slice start amount
              = image.slice (run.offset.toNat + start) amount :=
            Bytes.slice_slice (by omega)
          have least : min ((run.bytes image).length - start) count = amount := by omega
          have left : count - ((run.bytes image).length - start) = count - amount := by omega
          obtain ⟨middle, readyMiddle, first⟩ := serves.readExactly_eq_ok isReady inside
          obtain ⟨after, readyAfter, second⟩ := behind 0 (count - amount) middle readyMiddle
          refine ⟨after, readyAfter, ?_⟩
          rw [← chosen, place, joined, Bytes.slice_append (by omega), least, left, part]
          dsimp only
          rw [bind_of_ok first, bind_of_ok second]
          rfl
      · next passed =>
          -- The request starts behind this run, or it asks for nothing.
          obtain ⟨after, readyAfter, answer⟩ :=
            behind (start - run.length).toNat count medium isReady
          refine ⟨after, readyAfter, answer.trans ?_⟩
          by_cases wanted : 0 < count
          · have place : (start - run.length).toNat = start - (run.bytes image).length := by omega
            rw [joined, Bytes.slice_append_of_le (by omega), place]
          · obtain rfl : count = 0 := by omega
            simp [Bytes.slice]

/-- Runs that lie inside the image hold their concatenation. -/
theorem holds_recorded (serves : source.Serves image ready)
    (within : ∀ run ∈ runs, run.IsWithin image)
    : (Contents.recorded source runs).Holds (concatenation image runs) ready where
  length_eq := by
    rw [Contents.length, concatenation]
    induction runs with
    | nil => rfl
    | cons run others ih =>
        have length := (within run (by simp)).length_bytes
        have behind := ih (fun other member => within other (List.mem_cons_of_mem _ member))
        rw [List.foldr_cons, List.flatMap_cons, List.length_append, behind]
        omega
  range_eq start count medium isReady := readRuns_eq serves within start count medium isReady

end

end Contents

namespace FileStream

/-- A stream and its medium play a tape: they hold its contents and are at its position. -/
structure Plays (state : FileStream σ × σ) (tape : Tape) (ready : σ → Prop) : Prop where
  isReady : ready state.2
  holds : state.1.contents.Holds tape.contents ready
  position_eq : state.1.position = tape.position
  isOpen_eq : state.1.isOpen = tape.isOpen

variable {state : FileStream σ × σ} {tape : Tape} {ready : σ → Prop}

theorem opened_of_open (isOpen : state.1.isOpen = true) : opened state = .ok state.1 state := by
  have looked : current state = .ok state.1 state := rfl
  rw [opened, bind_of_ok looked, if_pos isOpen]
  rfl

theorem opened_of_closed (closed : state.1.isOpen = false)
    : opened state = .error (.misused .closedStream) state := by
  have looked : current state = .ok state.1 state := rfl
  rw [opened, bind_of_ok looked, if_neg (by simp [closed])]
  rfl

namespace Plays

/-- The bytes left in a stream are those left on the tape. -/
theorem remaining_eq (plays : Plays state tape ready)
    : state.1.remaining = tape.rest.length := by
  rw [remaining, plays.holds.length_eq, plays.position_eq, Tape.rest, List.length_drop]
  omega

/-- Bytes that are left are delivered, and the stream moves past them like the tape. -/
theorem deliver (plays : Plays state tape ready) {count : Nat} (h : count ≤ tape.rest.length)
    : ∃ next, Plays next (tape.after (tape.rest.take count)) ready
        ∧ state.1.deliver count state = .ok (tape.rest.take count) next := by
  obtain ⟨stream, medium⟩ := state
  obtain ⟨isReady, holds, position_eq, isOpen_eq⟩ := plays
  simp only at isReady holds position_eq isOpen_eq
  obtain ⟨after, readyAfter, answer⟩ := holds.range_eq tape.position count medium isReady
  have read : onMedium (stream.contents.range stream.position.toNat count) (stream, medium)
      = .ok (tape.rest.take count) (stream, after) := by
    rw [position_eq, Int.toNat_natCast]
    simp only [onMedium, answer]
    rfl
  refine ⟨({ stream with position := stream.position + count }, after), ?_, ?_⟩
  · refine { isReady := readyAfter, holds := holds, position_eq := ?_, isOpen_eq := isOpen_eq }
    simp only [Tape.after, List.length_take_of_le h, position_eq, Int.natCast_add]
  · rw [FileStream.deliver, bind_of_ok read]
    rfl

/-- All that is left is delivered. -/
theorem readAll (plays : Plays state tape ready) (isOpen : tape.isOpen = true)
    : ∃ next, Plays next (tape.after tape.rest) ready
        ∧ FileStream.readAll state = .ok tape.rest next := by
  obtain ⟨next, playsNext, delivered⟩ := plays.deliver (Nat.le_refl _)
  rw [List.take_length] at playsNext delivered
  refine ⟨next, playsNext, ?_⟩
  rw [FileStream.readAll, bind_of_ok (opened_of_open (plays.isOpen_eq.trans isOpen)),
    plays.remaining_eq]
  exact delivered

/-- A read delivers what it delivers from the tape. -/
theorem read (plays : Plays state tape ready) (isOpen : tape.isOpen = true) (size : Option Int)
    : ∃ next, Plays next (tape.after (tape.delivery size)) ready
        ∧ FileStream.read size state = .ok (tape.delivery size) next := by
  have start := opened_of_open (plays.isOpen_eq.trans isOpen)
  -- The stream bounds the size by what is left before it reads, the tape takes what it finds.
  have delivery_eq : tape.delivery size = tape.rest.take
      (if size.getD (-1) < 0 then tape.rest.length
        else min tape.rest.length (size.getD (-1)).toNat) := by
    cases size with
    | none => simp [Tape.delivery]
    | some size =>
        rw [Tape.delivery, Option.getD_some]
        split
        · rw [List.take_length]
        · rw [List.take_eq_take_iff]
          omega
  have bound : (if size.getD (-1) < 0 then tape.rest.length
      else min tape.rest.length (size.getD (-1)).toNat) ≤ tape.rest.length := by
    split <;> omega
  rw [delivery_eq]
  obtain ⟨next, playsNext, delivered⟩ := plays.deliver bound
  refine ⟨next, playsNext, ?_⟩
  rw [FileStream.read, bind_of_ok start, plays.remaining_eq]
  exact delivered

/-- A buffer is filled from the tape. -/
theorem readInto (plays : Plays state tape ready) (isOpen : tape.isOpen = true) (buffer : Bytes)
    : ∃ next, Plays next (tape.after (tape.rest.take buffer.length)) ready
        ∧ FileStream.readInto buffer state
          = .ok ((tape.rest.take buffer.length).length, tape.rest.take buffer.length
              ++ buffer.drop (tape.rest.take buffer.length).length) next := by
  have shorter : tape.rest.take buffer.length
      = tape.rest.take (min tape.rest.length buffer.length) := by
    rw [List.take_eq_take_iff]
    omega
  rw [shorter]
  obtain ⟨next, playsNext, delivered⟩ := plays.deliver (Nat.min_le_left _ buffer.length)
  refine ⟨next, playsNext, ?_⟩
  rw [FileStream.readInto, bind_of_ok (opened_of_open (plays.isOpen_eq.trans isOpen)),
    plays.remaining_eq, bind_of_ok delivered]
  rfl

/-- Displacements lead where they lead on the tape. -/
theorem target_eq (plays : Plays state tape ready) (displacement : Displacement) (origin : Int)
    : match tape.target displacement origin with
      | .ok position => state.1.target displacement origin = .ok (position : Int)
      | .error misuse => state.1.target displacement origin = .error misuse := by
  cases displacement with
  | fractional => rfl
  | whole bytes =>
      have length_eq := plays.holds.length_eq
      have position_eq := plays.position_eq
      -- For each origin, the sum is refused if it is negative, and is a position otherwise.
      by_cases start : origin = 0
      · by_cases negative : bytes < 0
        · simp [target, Tape.target, Tape.base?, start, negative]
        · have sum : (bytes.toNat : Int) = bytes := by omega
          simp [target, Tape.target, Tape.base?, start, negative, sum]
      · by_cases here : origin = 1
        · by_cases negative : tape.position + bytes < 0
          · simp [target, Tape.target, Tape.base?, here, position_eq, negative]
          · have sum : ((tape.position + bytes).toNat : Int) = tape.position + bytes := by omega
            simp [target, Tape.target, Tape.base?, here, position_eq, negative, sum]
        · by_cases stop : origin = 2
          · by_cases negative : tape.contents.length + bytes < 0
            · have backwards : bytes < 0 := by omega
              simp [target, Tape.target, Tape.base?, stop, length_eq, negative, backwards]
            · have sum : ((tape.contents.length + bytes).toNat : Int)
                  = tape.contents.length + bytes := by
                omega
              simp [target, Tape.target, Tape.base?, stop, length_eq, negative, sum]
          · simp [target, Tape.target, Tape.base?, start, here, stop]

/-- Closing a stream closes the tape. -/
theorem close (plays : Plays state tape ready)
    : ∃ next, Plays next { tape with isOpen := false } ready
        ∧ perform .close state = .ok .nothing next := by
  refine ⟨({ state.1 with isOpen := false }, state.2), ?_, rfl⟩
  exact {
    isReady := plays.isReady
    holds := plays.holds
    position_eq := plays.position_eq
    isOpen_eq := rfl
  }

/-- A seek leads to the same position or is refused for the same reason. -/
theorem seek (plays : Plays state tape ready) (isOpen : tape.isOpen = true)
    (displacement : Displacement) (origin : Int)
    : ∃ next, Plays next (tape.obey (.seek displacement origin)).2 ready
        ∧ step state (.seek displacement origin)
          = ((tape.obey (.seek displacement origin)).1, next) := by
  have start := opened_of_open (plays.isOpen_eq.trans isOpen)
  have agreed := plays.target_eq displacement origin
  simp only [step, perform, Tape.Command.request, Tape.obey]
  cases found : tape.target displacement origin with
  | ok position =>
      rw [found] at agreed
      have moved : FileStream.seek displacement origin state
          = .ok (position : Int) ({ state.1 with position }, state.2) := by
        rw [FileStream.seek, bind_of_ok start, agreed]
        rfl
      refine ⟨({ state.1 with position }, state.2), ?_, ?_⟩
      · exact {
          isReady := plays.isReady
          holds := plays.holds
          position_eq := rfl
          isOpen_eq := plays.isOpen_eq
        }
      · rw [bind_of_ok moved]
        rfl
  | error misuse =>
      rw [found] at agreed
      have refused : FileStream.seek displacement origin state
          = .error (.misused misuse) state := by
        rw [FileStream.seek, bind_of_ok start, agreed]
        rfl
      refine ⟨state, plays, ?_⟩
      rw [bind_of_error refused]

/-- A closed stream refuses what a closed tape refuses. -/
theorem step_of_closed (plays : Plays state tape ready) (closed : tape.isOpen = false)
    {command : Tape.Command} (other : command ≠ .close)
    : step state command = (.error (.misused .closedStream), state) := by
  have refused := opened_of_closed (plays.isOpen_eq.trans closed)
  have performed : perform command.request state = .error (.misused .closedStream) state := by
    cases command with
    | close => exact absurd rfl other
    | tell | length => exact bind_of_error refused
    | read | readAll | readInto | seek => exact bind_of_error (bind_of_error refused)
  rw [step, performed]

/-- An open stream does what an open tape does, case by case on the command. -/
theorem step_of_open (plays : Plays state tape ready) (isOpen : tape.isOpen = true)
    (command : Tape.Command)
    : ∃ next, Plays next (tape.obey command).2 ready
        ∧ step state command = ((tape.obey command).1, next) := by
  have start := opened_of_open (plays.isOpen_eq.trans isOpen)
  cases command with
  | read size =>
      obtain ⟨next, playsNext, delivered⟩ := plays.read isOpen size
      refine ⟨next, playsNext, ?_⟩
      rw [step, Tape.Command.request, perform, bind_of_ok delivered]
      rfl
  | readAll =>
      obtain ⟨next, playsNext, delivered⟩ := plays.readAll isOpen
      refine ⟨next, playsNext, ?_⟩
      rw [step, Tape.Command.request, perform, bind_of_ok delivered]
      rfl
  | readInto buffer =>
      obtain ⟨next, playsNext, delivered⟩ := plays.readInto isOpen buffer
      refine ⟨next, playsNext, ?_⟩
      rw [step, Tape.Command.request, perform, bind_of_ok delivered]
      rfl
  | seek displacement origin => exact plays.seek isOpen displacement origin
  | tell =>
      refine ⟨state, plays, ?_⟩
      rw [step, Tape.Command.request, perform, bind_of_ok start, plays.position_eq]
      rfl
  | length =>
      refine ⟨state, plays, ?_⟩
      rw [step, Tape.Command.request, perform, bind_of_ok start, plays.holds.length_eq]
      rfl
  | close =>
      obtain ⟨next, playsNext, closed⟩ := plays.close
      refine ⟨next, playsNext, ?_⟩
      rw [step, Tape.Command.request, closed]
      rfl

/-- A stream that plays a tape answers like it, and goes on playing it. -/
theorem step_eq (plays : Plays state tape ready) (command : Tape.Command)
    : ∃ next, Plays next (tape.step command).2 ready
        ∧ step state command = ((tape.step command).1, next) := by
  rw [Tape.step]
  split
  · next heard =>
      cases isOpen : tape.isOpen with
      | true => exact plays.step_of_open isOpen command
      | false =>
          obtain rfl : command = .close := by simpa [isOpen] using heard
          obtain ⟨next, playsNext, closed⟩ := plays.close
          refine ⟨next, playsNext, ?_⟩
          rw [step, Tape.Command.request, closed]
          rfl
  · next refused =>
      simp only [not_or, Bool.not_eq_true] at refused
      exact ⟨state, plays, plays.step_of_closed refused.1 refused.2⟩

/-- A stream that plays a tape cannot be told from it, by induction on the commands. -/
theorem sights_eq (plays : Plays state tape ready) (commands : List Tape.Command)
    : sights state commands = tape.sights commands := by
  induction commands generalizing state tape with
  | nil => rfl
  | cons command others ih =>
      obtain ⟨next, playsNext, stepped⟩ := plays.step_eq command
      rw [sights, Tape.sights, stepped]
      simp only [playsNext.position_eq, playsNext.isOpen_eq, ih playsNext]

end Plays

/-- A stream over runs of an image, a stream over their bytes as embedded data and a tape of
those bytes answer every sequence of commands alike, failures among them, and are at the same
position after each command.
-/
theorem sights_eq_tape {source : Source σ} {image : Bytes} {runs : List ByteRun}
    (serves : source.Serves image ready) (within : ∀ run ∈ runs, run.IsWithin image)
    (medium : σ) (isReady : ready medium) (other : τ) (commands : List Tape.Command)
    : sights ({ contents := .recorded source runs }, medium) commands
        = Tape.sights { contents := Contents.concatenation image runs } commands
      ∧ sights ({ contents := .embedded (Contents.concatenation image runs) }, other) commands
        = Tape.sights { contents := Contents.concatenation image runs } commands := by
  have recorded : Plays ({ contents := .recorded source runs }, medium)
      { contents := Contents.concatenation image runs } ready := {
    isReady := isReady
    holds := Contents.holds_recorded serves within
    position_eq := rfl
    isOpen_eq := rfl
  }
  have embedded : Plays ({ contents := .embedded (Contents.concatenation image runs) }, other)
      { contents := Contents.concatenation image runs } (fun _ => True) := {
    isReady := trivial
    holds := Contents.holds_embedded _ _
    position_eq := rfl
    isOpen_eq := rfl
  }
  exact ⟨recorded.sights_eq commands, embedded.sights_eq commands⟩

/-- Two runs out of order with an empty one far away between them. -/
def scatteredRuns : List ByteRun := [⟨3, 2⟩, ⟨99, 0⟩, ⟨0, 2⟩]

def scatteredContents : ByteArray := ⟨#[10, 20, 30, 40, 50]⟩

/-- Reads across the runs and past the end, refused moves and a closed stream. -/
def scatteredCommands : List Tape.Command :=
  [.read (some 3), .readInto [0, 0], .seek (.whole (-1)) 2, .seek .fractional 0, .readAll,
    .seek (.whole 9) 0, .read none, .seek (.whole 1) 7, .close, .tell]

theorem sights_eq_tape_scattered
    : (∀ run ∈ scatteredRuns, run.IsWithin scatteredContents.data.toList)
      ∧ sights (({ contents := .recorded (Source.ofContents scatteredContents) scatteredRuns }
            : FileStream Unit), ()) scatteredCommands
        = Tape.sights { contents := [40, 50, 10, 20] } scatteredCommands
      ∧ sights (({ contents := .embedded [40, 50, 10, 20] } : FileStream Unit), ())
          scatteredCommands
        = Tape.sights { contents := [40, 50, 10, 20] } scatteredCommands := by
  have within : ∀ run ∈ scatteredRuns, run.IsWithin scatteredContents.data.toList := by
    intro run member
    simp only [scatteredRuns, List.mem_cons, List.not_mem_nil, or_false] at member
    rcases member with rfl | rfl | rfl
    · exact ⟨by decide, by decide, by decide⟩
    · exact ⟨by decide, by decide, by decide⟩
    · exact ⟨by decide, by decide, by decide⟩
  exact ⟨within,
    sights_eq_tape (Source.Serves.ofContents scatteredContents) within () trivial ()
      scatteredCommands⟩

end FileStream

end DiscVolume
