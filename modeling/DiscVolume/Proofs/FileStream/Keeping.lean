import DiscVolume.Proofs.FileStream.Playback
import DiscVolume.Proofs.Medium.Verdicts

/-! What is kept of a stream while it is read, and the ways in which reading may fail. Both follow
from what is known of the contents of the stream: all that reading does to a stream is to move it on
from where it has been found.
-/

namespace DiscVolume

open Access Sequencing

/-- A step may do anything if anything is allowed. -/
theorem Access.FailsOnly.anything (step : Access σ α)
    : step.FailsOnly (fun _ => True) (fun _ => True) := by
  intro medium _
  unfold Ends
  split
  · trivial
  · exact ⟨trivial, trivial⟩

namespace FileStream

/-- A property of streams is kept while they are read on ready media, and reading fails in certain
ways only.
-/
structure Regime (kept : FileStream σ → Prop) (ready : σ → Prop) (allowed : Failure → Prop)
    : Prop where
  range : ∀ stream start count, kept stream
    → (stream.contents.range start count).FailsOnly ready allowed
  moved : ∀ stream found, ∀ count : Nat, kept stream → kept found
    → kept { stream with position := found.position + count }
  closed : ∀ stream, kept stream → stream.isOpen = false → allowed (.misused .closedStream)

/-- What the layer that reads lines on top of a stream turns down by itself, with the fault that it
reports: a limit or a hint that no size can have. It also takes no closed stream to read all lines
of; which fault is reported then is left open.
-/
inductive Request.IsUnfit (isOpen : Bool) : Request → MediumFault → Prop where
  | limit {limit : Option Int} (outside : isIndex (limit.getD (-1)) = false)
      : IsUnfit isOpen (.readLine limit) .countTooLarge
  | hint {hint : Option Int} (outside : isIndex (hint.getD 0) = false)
      : IsUnfit isOpen (.readLines hint) .countTooLarge
  | closed {hint : Option Int} (fault : MediumFault) (isClosed : isOpen = false)
      : IsUnfit isOpen (.readLines hint) fault

variable {kept : FileStream σ → Prop} {ready : σ → Prop} {allowed wider : Failure → Prop}

theorem onMedium_failsOnly {step : Access σ α} (only : step.FailsOnly ready allowed)
    : FailsOnly (onMedium step) (Beside kept ready) allowed := by
  refine only.beside ?_ ?_
  · intro stream medium value after found
    simp only [onMedium, found]
  · intro stream medium failure after failed
    simp only [onMedium, failed]

namespace Regime

variable (regime : Regime kept ready allowed)

include regime

theorem mono (wide : ∀ failure, allowed failure → wider failure) : Regime kept ready wider where
  range stream start count isKept := (regime.range stream start count isKept).mono wide
  moved := regime.moved
  closed stream isKept isClosed := wide _ (regime.closed stream isKept isClosed)

/-- What is done with an open stream fails as it does with the stream that is found. -/
theorem opened_bind {others : FileStream σ → Playing σ α}
    (rest : ∀ stream, kept stream → FailsOnly (others stream) (Beside kept ready) allowed)
    : FailsOnly (opened >>= others) (Beside kept ready) allowed := by
  intro state beside
  cases isOpen : state.1.isOpen with
  | true =>
      rw [bind_of_ok (opened_of_open isOpen)]
      exact rest state.1 beside.isKept state beside
  | false =>
      rw [bind_of_error (opened_of_closed isOpen)]
      exact ⟨beside, regime.closed state.1 beside.isKept isOpen⟩

theorem deliver {stream : FileStream σ} (isKept : kept stream) (count : Nat)
    : FailsOnly (stream.deliver count) (Beside kept ready) allowed := by
  refine (onMedium_failsOnly (regime.range stream _ count isKept)).bind (fun data => ?_)
  have moves : FailsOnly (moveTo (stream.position + count)) (Beside kept ready) allowed :=
    fun state beside =>
      { beside with isKept := regime.moved state.1 stream count beside.isKept isKept }
  exact moves.bind (fun _ => .pure data)

theorem read (size : Option Int) : FailsOnly (read size) (Beside kept ready) allowed :=
  regime.opened_bind (fun _ isKept => regime.deliver isKept _)

theorem readAll : FailsOnly readAll (Beside kept ready) allowed :=
  regime.opened_bind (fun _ isKept => regime.deliver isKept _)

theorem readInto (buffer : Bytes) : FailsOnly (readInto buffer) (Beside kept ready) allowed :=
  regime.opened_bind (fun _ isKept => (regime.deliver isKept _).bind (fun _ => .pure _))

/-- A line is read by single bytes, by induction on how many it may have. -/
theorem lineWithin (budget : Nat)
    : FailsOnly (lineWithin budget) (Beside kept ready) allowed := by
  induction budget with
  | zero => exact .pure _
  | succ budget ih =>
      refine (regime.read _).bind (fun data => ?_)
      split
      · exact .pure _
      · exact ih.bind (fun _ => .pure _)

theorem readLine {limit : Option Int}
    (tooLarge : isIndex (limit.getD (-1)) = false → allowed (.medium .countTooLarge))
    : FailsOnly (readLine limit) (Beside kept ready) allowed := by
  rw [FileStream.readLine]
  cases fits : isIndex (limit.getD (-1)) with
  | true =>
      rw [if_neg (by simp)]
      split
      · exact .pure _
      · exact regime.opened_bind (fun _ _ => regime.lineWithin _)
  | false =>
      rw [if_pos (by simp)]
      exact .throw (tooLarge fits)

/-- Lines are read one by one, by induction on how many there may be. -/
theorem linesWithin (budget : Nat) (room : Option Nat)
    : FailsOnly (linesWithin budget room) (Beside kept ready) allowed := by
  have fits : isIndex (-1) = true := by decide
  induction budget generalizing room with
  | zero => exact .pure _
  | succ budget ih =>
      refine (regime.readLine (by simp [fits])).bind (fun line => ?_)
      split
      · exact .pure _
      split
      · exact (ih none).bind (fun _ => .pure _)
      split
      · exact .pure _
      · exact (ih _).bind (fun _ => .pure _)

theorem readLines {hint : Option Int}
    (tooLarge : isIndex (hint.getD 0) = false → allowed (.medium .countTooLarge))
    (shut : ∀ stream, kept stream → stream.isOpen = false → allowed (.medium .closedFile))
    : FailsOnly (readLines hint) (Beside kept ready) allowed := by
  intro state beside
  have looked : current state = .ok state.1 state := rfl
  rw [FileStream.readLines, bind_of_ok looked]
  cases fits : isIndex (hint.getD 0) with
  | true =>
      rw [if_neg (by simp)]
      cases isOpen : state.1.isOpen with
      | true =>
          rw [if_neg (by simp)]
          exact regime.linesWithin _ _ state beside
      | false =>
          rw [if_pos (by simp)]
          exact ⟨beside, shut state.1 beside.isKept isOpen⟩
  | false =>
      rw [if_pos (by simp)]
      exact ⟨beside, tooLarge fits⟩

/-- All that is asked of a stream but to move or to close fails as reading does, or because it is
unfit.
-/
theorem perform {request : Request}
    (stays : ∀ displacement origin, request ≠ .seek displacement origin)
    (noClose : request ≠ .close) (noDrain : request ≠ .drain)
    (unfit : ∀ stream fault, kept stream → request.IsUnfit stream.isOpen fault
      → allowed (.medium fault))
    : FailsOnly (perform request) (Beside kept ready) allowed := by
  cases request with
  | read size => exact (regime.read size).bind (fun _ => .pure _)
  | readAll => exact regime.readAll.bind (fun _ => .pure _)
  | readInto buffer => exact (regime.readInto buffer).bind (fun _ => .pure _)
  | readLine limit =>
      intro state beside
      refine (regime.readLine fun outside => ?_).bind (fun _ => .pure _) state beside
      exact unfit state.1 _ beside.isKept (.limit outside)
  | readLines hint =>
      intro state beside
      refine (regime.readLines (fun outside => ?_) fun stream isKept isClosed => ?_).bind
        (fun _ => .pure _) state beside
      · exact unfit state.1 _ beside.isKept (.hint outside)
      · exact unfit stream _ isKept (.closed .closedFile isClosed)
  | tell | length | isReadable | isSeekable => exact regime.opened_bind (fun _ _ => .pure _)
  | isWritable => exact .pure _
  | isClosed => exact fun _ beside => beside
  | seek displacement origin => exact absurd rfl (stays displacement origin)
  | close => exact absurd rfl noClose
  | drain => exact absurd rfl noDrain

end Regime

-----------------------------------------------------------------------------------------
-- Streams that can be reached
-----------------------------------------------------------------------------------------

/-- A stream over runs of a source after any requests, made on any media, whether or not they were
answered.
-/
inductive Reached (source : Source σ) (runs : List ByteRun) : FileStream σ → Prop where
  | fresh : Reached source runs { contents := .recorded source runs }
  | answered {stream next : FileStream σ} {request : Request} {reply : Reply} {medium after : σ}
      (reached : Reached source runs stream)
      (found : perform request (stream, medium) = .ok reply (next, after))
      : Reached source runs next
  | failed {stream next : FileStream σ} {request : Request} {failure : Failure} {medium after : σ}
      (reached : Reached source runs stream)
      (found : perform request (stream, medium) = .error failure (next, after))
      : Reached source runs next

/-- A stream over some contents that is not in front of their start. -/
structure IsSound (contents : Contents σ) (stream : FileStream σ) : Prop where
  contents_eq : stream.contents = contents
  position_nonneg : 0 ≤ stream.position

variable {contents : Contents σ} {stream : FileStream σ} {source : Source σ} {runs : List ByteRun}

theorem regime_isSound (contents : Contents σ)
    : Regime (IsSound contents) (fun _ => True) (fun _ => True) where
  range _ _ _ _ := .anything _
  moved _ _ count isSound foundSound :=
    ⟨isSound.contents_eq, Int.add_nonneg foundSound.position_nonneg (Int.natCast_nonneg count)⟩
  closed _ _ _ := trivial

/-- No displacement leads in front of the start. -/
theorem target_nonneg {displacement : Displacement} {origin position : Int}
    (length_nonneg : 0 ≤ stream.contents.length)
    (found : stream.target displacement origin = .ok position)
    : 0 ≤ position := by
  cases displacement with
  | fractional => cases found
  | whole bytes =>
      simp only [target] at found
      split at found
      · split at found
        · cases found
        · cases found
          omega
      split at found
      · split at found
        · cases found
        · cases found
          omega
      split at found
      · split at found
        · cases found
        · cases found
          omega
      · cases found

/-- Whatever is asked of a stream, it does not get in front of its start. -/
theorem perform_isSound (length_nonneg : 0 ≤ contents.length) (request : Request)
    : FailsOnly (perform request) (Beside (IsSound contents) fun _ => True) fun _ => True := by
  have regime := regime_isSound contents
  cases request with
  | seek displacement origin =>
      refine FailsOnly.bind ?_ (fun _ => .pure _)
      refine regime.opened_bind fun stream isSound => ?_
      cases found : stream.target displacement origin with
      | error misuse => exact .throw trivial
      | ok position =>
          have notBefore : 0 ≤ position :=
            target_nonneg (isSound.contents_eq ▸ length_nonneg) found
          have moves : FailsOnly (moveTo position) (Beside (IsSound contents) fun _ => True)
              fun _ => True :=
            fun _ beside => ⟨⟨beside.isKept.contents_eq, notBefore⟩, trivial⟩
          exact moves.bind (fun _ => .pure position)
  | close => exact fun _ beside => ⟨{ beside.isKept with }, trivial⟩
  | drain =>
      refine FailsOnly.bind (fun state beside => ?_) (fun _ => .pure _)
      have ends := regime.read none state beside
      rw [drain]
      cases result : read none state with
      | ok data after =>
          rw [result] at ends
          exact ⟨{ ends.isKept with }, trivial⟩
      | error failure after =>
          rw [result] at ends
          exact ⟨⟨{ ends.1.isKept with }, trivial⟩, trivial⟩
  | _ => exact regime.perform (by simp) (by simp) (by simp) (fun _ _ _ _ => trivial)

theorem length_recorded_nonneg (source : Source σ) (lengths : ∀ run ∈ runs, 0 ≤ run.length)
    : 0 ≤ (Contents.recorded source runs).length := by
  induction runs with
  | nil => exact Int.le_refl 0
  | cons run others ih =>
      have front := lengths run (by simp)
      have behind := ih fun other member => lengths other (List.mem_cons_of_mem _ member)
      exact Int.add_nonneg front behind

/-- A stream that can be reached is sound, by induction on how it is reached. -/
theorem Reached.isSound (lengths : ∀ run ∈ runs, 0 ≤ run.length)
    (reached : Reached source runs stream)
    : IsSound (.recorded source runs) stream := by
  have length_nonneg := length_recorded_nonneg source lengths
  induction reached with
  | fresh => exact ⟨rfl, Int.le_refl 0⟩
  | @answered _ _ request _ medium _ _ found isSound =>
      have only := perform_isSound length_nonneg request
      exact (only.ready_of_ok ⟨isSound, trivial⟩ found).isKept
  | @failed _ _ request _ medium _ _ found isSound =>
      have only := perform_isSound length_nonneg request
      exact (only.of_error ⟨isSound, trivial⟩ found).1.isKept

end FileStream

end DiscVolume
