import DiscVolume.Proofs.FileStream.Keeping
import DiscVolume.Proofs.Volume.FileContents

/-! Streams over contents that are served fail with a verdict on the image, or because they are
closed or asked to seek where they cannot. Only the reading of lines may fail otherwise, by a limit
that is no size or on a closed stream. Streams keep their contents whatever is asked of them.
-/

namespace DiscVolume

open Access Sequencing

/-- Contents that are embedded, or that lie in runs of a served source. -/
inductive Contents.IsServed (ready : σ → Prop) : Contents σ → Prop where
  | embedded (data : Bytes) : IsServed ready (.embedded data)
  | recorded {source : Source σ} {image : Bytes} {runs : List ByteRun}
      (serves : source.Serves image ready) (bounded : ∀ run ∈ runs, run.IsBounded)
      : IsServed ready (.recorded source runs)

namespace Contents

variable {contents : Contents σ} {source : Source σ} {image : Bytes} {ready : σ → Prop}

/-- Runs are read with verdicts only, by induction on the runs. -/
theorem readRuns_failsOnly {runs : List ByteRun} (serves : source.Serves image ready)
    (bounded : ∀ run ∈ runs, run.IsBounded) (start count : Nat)
    : (readRuns source runs start count).FailsOnly ready Failure.IsVerdict := by
  induction runs generalizing start count with
  | nil => exact .pure _
  | cons run others ih =>
      have rest := ih (fun other member => bounded other (List.mem_cons_of_mem _ member))
      rw [readRuns]
      split
      · next reached =>
          obtain ⟨offset_nonneg, length_nonneg, stop_lt⟩ := bounded run (by simp)
          have place : run.offset + start = ((run.offset.toNat + start : Nat) : Int) := by omega
          rw [place]
          refine (serves.failsOnly (by omega) (by omega)).bind (fun _ => ?_)
          exact (rest 0 _).bind (fun _ => .pure _)
      · exact rest _ _

theorem IsServed.range_failsOnly (isServed : contents.IsServed ready) (start count : Nat)
    : (contents.range start count).FailsOnly ready Failure.IsVerdict := by
  cases isServed with
  | embedded data => exact .pure _
  | recorded serves bounded => exact readRuns_failsOnly serves bounded start count

end Contents

/-- The contents of a file can be read, as far as the image has them. -/
theorem Volume.contentsOf_isServed {volume : Volume σ} {image : Bytes} {ready : σ → Prop}
    (serves : volume.source.Serves image ready) (entry : Entry)
    : (volume.contentsOf entry).IsServed ready := by
  cases stored : entry.record.data with
  | embedded data =>
      rw [contentsOf, stored]
      exact .embedded data
  | short _ | long _ =>
      rw [contentsOf_eq (by simp [stored])]
      exact .recorded serves (fun _ => isBounded_of_mem)

namespace FileStream

/-- A stream over some contents, open or not. -/
structure IsOn (contents : Contents σ) (isOpen : Bool) (stream : FileStream σ) : Prop where
  contents_eq : stream.contents = contents
  isOpen_eq : stream.isOpen = isOpen

/-- Reading a stream fails with a verdict on the image, unless the stream is closed. -/
def Fails (isOpen : Bool) (failure : Failure) : Prop :=
  failure.IsJustified (fun misuse => isOpen = false ∧ misuse = .closedStream)

variable {contents : Contents σ} {isOpen : Bool} {ready : σ → Prop} {allowed : Failure → Prop}
variable {state : FileStream σ × σ}

section Reading

variable (isServed : contents.IsServed ready)

include isServed

/-- Streams over contents that are served keep them, and fail with verdicts or because they are
closed.
-/
theorem regime_of_isServed : Regime (IsOn contents isOpen) ready (Fails isOpen) where
  range stream start count isOn := by
    rw [isOn.contents_eq]
    exact (isServed.range_failsOnly start count).justified _
  moved _ _ _ isOn _ := { isOn with }
  closed _ isOn isClosed := .misuse ⟨isOn.isOpen_eq.symm.trans isClosed, rfl⟩

/-- All that is asked of a stream but to move or to close fails as reading does, or is unfit. -/
theorem perform_failsOnly {request : Request}
    (stays : ∀ displacement origin, request ≠ .seek displacement origin)
    (noClose : request ≠ .close) (noDrain : request ≠ .drain)
    : FailsOnly (perform request) (Beside (IsOn contents isOpen) ready)
        (fun failure => Fails isOpen failure
          ∨ ∃ fault, failure = .medium fault ∧ request.IsUnfit isOpen fault) := by
  have regime : Regime (IsOn contents isOpen) ready
      (fun failure => Fails isOpen failure
        ∨ ∃ fault, failure = .medium fault ∧ request.IsUnfit isOpen fault) :=
    (regime_of_isServed isServed).mono (fun _ => .inl)
  refine regime.perform stays noClose noDrain (fun stream fault isOn unfit => ?_)
  rw [isOn.isOpen_eq] at unfit
  exact .inr ⟨fault, rfl, unfit⟩

end Reading

/-- How a stream turns down a request. -/
inductive Rejects (stream : FileStream σ) : Request → Misuse → Prop where
  | closed (request : Request) (isClosed : stream.isOpen = false)
      : Rejects stream request .closedStream
  | badSeek (displacement : Displacement) (origin : Int) {misuse : Misuse}
      (refused : stream.target displacement origin = .error misuse)
      : Rejects stream (.seek displacement origin) misuse

/-- A closed stream rejects what reading fails on. -/
theorem Fails.isJustified {failure : Failure} (fails : Fails state.1.isOpen failure)
    (request : Request)
    : failure.IsJustified (state.1.Rejects request) := by
  refine Failure.IsJustified.mono fails ?_
  rintro misuse ⟨isClosed, rfl⟩
  exact .closed request isClosed

/-- A stream moves as it is asked to, or it is closed or cannot be moved there. -/
theorem seek_ends (isReady : ready state.2) (displacement : Displacement) (origin : Int)
    : Ends (seek displacement origin state)
        (Beside (·.contents = state.1.contents) ready)
        (Failure.IsJustified (state.1.Rejects (.seek displacement origin))) := by
  cases isOpen : state.1.isOpen with
  | false =>
      rw [seek, bind_of_error (opened_of_closed isOpen)]
      exact ⟨⟨rfl, isReady⟩, .misuse (.closed _ isOpen)⟩
  | true =>
      rw [seek, bind_of_ok (opened_of_open isOpen)]
      cases reached : state.1.target displacement origin with
      | ok position => exact ⟨rfl, isReady⟩
      | error misuse => exact ⟨⟨rfl, isReady⟩, .misuse (.badSeek displacement origin reached)⟩

/-- Draining a stream fails as reading it does. -/
theorem drain_ends (isServed : state.1.contents.IsServed ready) (isReady : ready state.2)
    : Ends (drain state) (Beside (·.contents = state.1.contents) ready)
        (Fails state.1.isOpen) := by
  have ends := (regime_of_isServed isServed).read none state ⟨⟨rfl, rfl⟩, isReady⟩
  rw [drain]
  cases result : read none state with
  | ok data after =>
      rw [result] at ends
      exact { ends with isKept := ends.isKept.contents_eq }
  | error failure after =>
      rw [result] at ends
      exact ⟨{ ends.1 with isKept := ends.1.isKept.contents_eq }, ends.2⟩

/-- Whatever a stream is asked for, it keeps its contents. What fails does so with a verdict on the
image, because the stream rejects it, or because it is unfit.
-/
theorem perform_ends (isServed : state.1.contents.IsServed ready) (isReady : ready state.2)
    (request : Request)
    : Ends (perform request state)
        (Beside (·.contents = state.1.contents) ready)
        (fun failure => failure.IsJustified (state.1.Rejects request)
          ∨ ∃ fault, failure = .medium fault ∧ request.IsUnfit state.1.isOpen fault) := by
  have beside : Beside (IsOn state.1.contents state.1.isOpen) ready state :=
    ⟨⟨rfl, rfl⟩, isReady⟩
  cases request with
  | seek displacement origin =>
      refine Ends.andPure ?_
      exact (seek_ends isReady displacement origin).mono (fun _ => id) (fun _ => .inl)
  | close => exact ⟨rfl, isReady⟩
  | drain =>
      refine Ends.andPure ?_
      exact (drain_ends isServed isReady).mono (fun _ => id)
        (fun _ fails => .inl (fails.isJustified .drain))
  | _ =>
      refine (perform_failsOnly isServed (by simp) (by simp) (by simp) state beside).mono ?_ ?_
      · intro after beside
        exact { beside with isKept := beside.isKept.contents_eq }
      · intro failure fails
        exact fails.imp_left (·.isJustified _)

end FileStream

end DiscVolume
