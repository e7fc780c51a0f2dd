import DiscVolume.Proofs.Directory.Traversal
import DiscVolume.Proofs.FileStream.Playback
import Mathlib.Tactic.Lift

/-! What a file contains: the data embedded in its file entry, or the bytes of the image that its
allocations cover, one after the other and nothing in between. Where an allocation reaches behind
the end of the image, the file cannot be read.
-/

namespace DiscVolume

open Sequencing

/-- The runs of an image that the allocations of a file cover, in a partition that starts at a
sector. A long allocation names its block in the low half of its location.
-/
def FileData.runs (start : Nat) : FileData → List ByteRun
  | .short allocations => allocations.map fun allocation =>
      ⟨2048 * (start + allocation.block.toNat : Nat), allocation.length.bytes.toNat⟩
  | .long allocations => allocations.map fun allocation =>
      ⟨2048 * (start + allocation.location.toNat % UInt32.size : Nat),
        allocation.length.bytes.toNat⟩
  | .embedded _ => []

/-- The bytes of a file: what is embedded, or what its runs cover, one run after the other. There
are none if a run that is not empty reaches behind the end of the image.
-/
def FileData.bytesOn (image : Bytes) (start : Nat) : FileData → Option Bytes
  | .embedded bytes => some bytes
  | recorded =>
      if ∀ run ∈ recorded.runs start, 0 < run.length → run.offset + run.length ≤ image.length then
        some ((recorded.runs start).flatMap fun run =>
          image.slice run.offset.toNat run.length.toNat)
      else none

/-- A run whose numbers are ones that files can deal with. -/
structure ByteRun.IsBounded (run : ByteRun) : Prop where
  offset_nonneg : 0 ≤ run.offset
  length_nonneg : 0 ≤ run.length
  stop_lt : run.offset + run.length < indexLimit

theorem LongAllocation.toNat_block (allocation : LongAllocation)
    : allocation.block.toNat = allocation.location.toNat % UInt32.size := by
  simp [block, UInt32.toNat, BitVec.extractLsb'_toNat]

namespace Volume

variable {volume : Volume σ}

/-- The runs of a file lie where its allocations are. -/
theorem runs_eq (volume : Volume σ) (data : FileData)
    : data.runs volume.partition.startLocation.toNat
      = data.allocations.map fun (block, length) => ⟨volume.offsetOf block, length⟩ := by
  have place (block : Nat)
      : 2048 * ((volume.partition.startLocation.toNat + block : Nat) : Int)
        = volume.offsetOf block := by
    rw [offsetOf, sectorOf, sectorSize]
    omega
  cases data with
  | short recorded => simp only [FileData.runs, FileData.allocations, place, List.map_map]; rfl
  | long recorded =>
      simp only [FileData.runs, FileData.allocations, place, List.map_map,
        ← LongAllocation.toNat_block]
      rfl
  | embedded bytes => rfl

/-- Contents that are not embedded are recorded in the runs of the file. -/
theorem contentsOf_eq {entry : Entry} (apart : ∀ bytes, entry.record.data ≠ .embedded bytes)
    : volume.contentsOf entry
      = .recorded volume.source (entry.record.data.runs volume.partition.startLocation.toNat) := by
  rw [contentsOf, runs_eq]
  split
  · next bytes stored => exact absurd stored (apart bytes)
  · rfl

/-- The numbers of recorded allocations are small. -/
theorem isBounded_of_mem {data : FileData} {run : ByteRun}
    (member : run ∈ data.runs volume.partition.startLocation.toNat)
    : run.IsBounded := by
  rw [runs_eq] at member
  obtain ⟨⟨block, length⟩, recorded, rfl⟩ := List.mem_map.mp member
  exact {
    offset_nonneg := Int.natCast_nonneg _
    length_nonneg := Int.natCast_nonneg _
    stop_lt := offsetOf_add_lt (data.block_lt _ recorded) (data.length_lt _ recorded)
  }

end Volume

namespace Contents

variable {source : Source σ} {image : Bytes} {ready : σ → Prop} {runs : List ByteRun}

theorem length_nonneg_of_bounded (source : Source σ) (bounded : ∀ run ∈ runs, run.IsBounded)
    : 0 ≤ (Contents.recorded source runs).length := by
  induction runs with
  | nil => exact Int.le_refl 0
  | cons run others ih =>
      have behind := ih (fun other member => bounded other (List.mem_cons_of_mem _ member))
      exact Int.add_nonneg (bounded run (by simp)).length_nonneg behind

/-- A run whose bytes are all asked for is read as a whole, unless it is empty. -/
theorem readRuns_cons (others : List ByteRun) {offset length count : Nat} (h : length ≤ count)
    : readRuns source (⟨offset, length⟩ :: others) 0 count
      = if 0 < length then do
          let data ← source.readExactly offset length
          let more ← readRuns source others 0 (count - length)
          return data ++ more
        else readRuns source others 0 count := by
  have amount : min ((length : Int) - (0 : Nat)).toNat count = length := by omega
  have place : (offset : Int) + (0 : Nat) = offset := by omega
  rw [readRuns]
  by_cases empty : length = 0
  · subst empty
    rw [if_neg (by simp), if_neg (by simp)]
    rfl
  · have positive : 0 < length := by omega
    rw [if_pos ⟨by omega, by simpa using positive⟩, if_pos positive]
    dsimp only
    rw [amount, place]

/-- Reading all runs falls short if one of them reaches behind the image, by induction on the runs.
Those in front of it are read in full.
-/
theorem readRuns_truncated (serves : source.Serves image ready)
    (bounded : ∀ run ∈ runs, run.IsBounded)
    (beyond : ∃ run ∈ runs, 0 < run.length ∧ image.length < run.offset + run.length)
    {count : Nat} (all : count = (Contents.recorded source runs).length) {medium : σ}
    (isReady : ready medium)
    : ∃ truncation after, ready after
        ∧ readRuns source runs 0 count medium = .error (.truncated truncation) after := by
  induction runs generalizing count medium with
  | nil =>
      obtain ⟨run, member, -⟩ := beyond
      cases member
  | cons run others ih =>
      have boundedOthers : ∀ other ∈ others, other.IsBounded :=
        fun other member => bounded other (List.mem_cons_of_mem _ member)
      have rest := length_nonneg_of_bounded source boundedOthers
      obtain ⟨offset_nonneg, length_nonneg, stop_lt⟩ := bounded run (by simp)
      obtain ⟨offset, length⟩ := run
      dsimp only at offset_nonneg length_nonneg stop_lt
      lift offset to Nat using offset_nonneg
      lift length to Nat using length_nonneg
      have total : (count : Int) = length + (Contents.recorded source others).length := all
      rw [readRuns_cons others (by omega)]
      by_cases short : 0 < length ∧ image.length < offset + length
      · obtain ⟨truncation, after, readyAfter, failed⟩ :=
          serves.readExactly_eq_error isReady (by omega) (by omega) short.1 short.2
        refine ⟨truncation, after, readyAfter, ?_⟩
        rw [if_pos short.1, bind_of_error failed]
      · -- This run is read or has nothing to read, so it is another that reaches too far.
        have later : ∃ run ∈ others, 0 < run.length ∧ image.length < run.offset + run.length := by
          obtain ⟨run, member, positive, far⟩ := beyond
          rcases List.mem_cons.mp member with rfl | member
          · dsimp only at positive far
            omega
          · exact ⟨run, member, positive, far⟩
        by_cases positive : 0 < length
        · have inside : offset + length ≤ image.length := by omega
          obtain ⟨middle, readyMiddle, read⟩ := serves.readExactly_eq_ok isReady inside
          have others_eq : ((count - length : Nat) : Int)
              = (Contents.recorded source others).length := by
            omega
          obtain ⟨truncation, after, readyAfter, failed⟩ :=
            ih boundedOthers later others_eq readyMiddle
          refine ⟨truncation, after, readyAfter, ?_⟩
          rw [if_pos positive, bind_of_ok read, bind_of_error failed]
        · rw [if_neg positive]
          exact ih boundedOthers later (by omega) isReady

end Contents

namespace FileStream

variable {contents : Contents σ} {data : Bytes} {ready : σ → Prop} {medium : σ}

/-- A stream at its start delivers all that its contents hold. -/
theorem read_of_holds (holds : contents.Holds data ready) (isReady : ready medium)
    : ∃ after, ready after
        ∧ read none ({ contents }, medium)
          = .ok data ({ contents, position := data.length }, after) := by
  have plays : Plays ({ contents }, medium) { contents := data } ready :=
    { isReady := isReady, holds := holds, position_eq := rfl, isOpen_eq := rfl }
  obtain ⟨after, readyAfter, answer⟩ := holds.range_eq 0 data.length medium isReady
  have whole : data.slice 0 data.length = data := by simp [Bytes.slice]
  have left : ({ contents } : FileStream σ).remaining = data.length := plays.remaining_eq
  have found : onMedium (contents.range 0 data.length) ({ contents }, medium)
      = .ok data ({ contents }, after) := by
    simp only [onMedium, answer, whole]
  refine ⟨after, readyAfter, ?_⟩
  rw [read, bind_of_ok (opened_of_open rfl)]
  simp only [Option.getD_none, if_pos (show (-1 : Int) < 0 by decide), left, deliver]
  refine (bind_of_ok found).trans ?_
  simp only [Int.zero_add]
  rfl

/-- A read that fails on the medium leaves the stream as it was. -/
theorem read_of_error {failure : Failure} {after : σ}
    (failed : contents.range 0 contents.length.toNat medium = .error failure after)
    : read none ({ contents }, medium) = .error failure ({ contents }, after) := by
  have left : ({ contents } : FileStream σ).remaining = contents.length.toNat := by
    rw [remaining, Int.sub_zero]
  rw [read, bind_of_ok (opened_of_open rfl)]
  simp only [Option.getD_none, if_pos (show (-1 : Int) < 0 by decide), left, deliver]
  refine bind_of_error ?_
  have start : Int.toNat 0 = 0 := rfl
  simp only [onMedium, start, failed]

end FileStream

namespace Volume

variable {volume : Volume σ} {image : Bytes} {ready : σ → Prop} {medium : σ}

/-- A file whose bytes are there contains these bytes. -/
theorem contentsOf_holds {entry : Entry} {bytes : Bytes}
    (serves : volume.source.Serves image ready)
    (found : entry.record.data.bytesOn image volume.partition.startLocation.toNat = some bytes)
    : (volume.contentsOf entry).Holds bytes ready := by
  unfold FileData.bytesOn at found
  split at found
  · next data stored =>
      cases found
      rw [contentsOf, stored]
      exact Contents.holds_embedded _ _
  · next apart =>
      split at found
      · next inside =>
          cases found
          rw [contentsOf_eq apart]
          refine Contents.holds_recorded serves (fun run member => ?_)
          have bounded := isBounded_of_mem member
          exact {
            length_nonneg := bounded.length_nonneg
            offset_nonneg := fun _ => bounded.offset_nonneg
            stop_le := inside run member
          }
      · cases found

/-- A file whose bytes are there is read as these bytes. -/
theorem read_of_bytesOn {entry : Entry} {bytes : Bytes}
    (serves : volume.source.Serves image ready) (isReady : ready medium)
    (found : entry.record.data.bytesOn image volume.partition.startLocation.toNat = some bytes)
    : ∃ after, ready after
        ∧ FileStream.read none ({ contents := volume.contentsOf entry }, medium)
          = .ok bytes
              ({ contents := volume.contentsOf entry, position := bytes.length }, after) :=
  FileStream.read_of_holds (contentsOf_holds serves found) isReady

/-- A file whose bytes are not all there is not read. -/
theorem read_of_bytesOn_none {entry : Entry} (serves : volume.source.Serves image ready)
    (isReady : ready medium)
    (missing : entry.record.data.bytesOn image volume.partition.startLocation.toNat = none)
    : ∃ truncation after, ready after
        ∧ FileStream.read none ({ contents := volume.contentsOf entry }, medium)
          = .error (.truncated truncation) ({ contents := volume.contentsOf entry }, after) := by
  unfold FileData.bytesOn at missing
  split at missing
  · cases missing
  · next apart =>
      split at missing
      · cases missing
      · next outside =>
          have bounded : ∀ run ∈ entry.record.data.runs volume.partition.startLocation.toNat,
              run.IsBounded :=
            fun run member => isBounded_of_mem member
          have beyond : ∃ run ∈ entry.record.data.runs volume.partition.startLocation.toNat,
              0 < run.length ∧ image.length < run.offset + run.length := by
            simpa only [not_forall, Int.not_le, exists_prop] using outside
          have all := Int.toNat_of_nonneg (Contents.length_nonneg_of_bounded volume.source bounded)
          obtain ⟨truncation, after, readyAfter, failed⟩ :=
            Contents.readRuns_truncated serves bounded beyond all isReady
          refine ⟨truncation, after, readyAfter, ?_⟩
          rw [contentsOf_eq apart]
          exact FileStream.read_of_error failed

end Volume

namespace Reader

variable {volume : Volume σ} {image : Bytes} {ready : σ → Prop}

theorem opened_of_held {state : Reader σ × σ} (held : state.1.volume = some volume)
    : opened state = .ok volume state := by
  have looked : (get : Using σ (Reader σ × σ)) state = .ok state state := rfl
  rw [opened, bind_of_ok looked, held]
  rfl

/-- The contents of a file are opened at their start, and nothing is read yet. -/
theorem openFile_eq_ok {entry : Entry} {state : Reader σ × σ}
    (held : state.1.volume = some volume) (isFile : entry.isDirectory = false)
    : openFile entry state = .ok { contents := volume.contentsOf entry } state := by
  rw [openFile, bind_of_ok (opened_of_held held), Volume.openFile, if_neg (by simp [isFile])]
  rfl

/-- A file that is opened reads as its bytes, neither more nor fewer. If they are not all there,
the image ends too early and the stream stays at its start.
-/
theorem openFile_reads_bytes {entry : Entry} (serves : volume.source.Serves image ready)
    (isFile : entry.isDirectory = false) (medium : σ)
    : ∃ stream,
        openFile entry ({ volume := some volume }, medium)
          = .ok stream ({ volume := some volume }, medium)
        ∧ stream.position = 0
        ∧ ∀ later, ready later →
            (∀ bytes,
              entry.record.data.bytesOn image volume.partition.startLocation.toNat = some bytes
              → ∃ after, ready after
                ∧ FileStream.read none (stream, later)
                  = .ok bytes ({ stream with position := bytes.length }, after))
            ∧ (entry.record.data.bytesOn image volume.partition.startLocation.toNat = none
              → ∃ truncation after, ready after
                ∧ FileStream.read none (stream, later)
                  = .error (.truncated truncation) (stream, after)) := by
  refine ⟨_, openFile_eq_ok rfl isFile, rfl, fun later isReady => ⟨fun bytes found => ?_, ?_⟩⟩
  · exact Volume.read_of_bytesOn serves isReady found
  · exact Volume.read_of_bytesOn_none serves isReady

/-- A file in two pieces with an empty one far away between them. The block numbers are below
references to some partition.
-/
def scatteredFile : Entry :=
  .root { blankFileEntry with
    data := .long [⟨⟨3, 0⟩, 0x700000000⟩, ⟨⟨0, 1⟩, 0xFFFFFFFF⟩, ⟨⟨2, 1⟩, 1⟩]
  }
    "SCATTERED"

/-- A file whose second piece reaches one byte behind the image. -/
def cutFile : Entry :=
  .root { blankFileEntry with data := .short [⟨⟨3, 0⟩, 0⟩, ⟨⟨2049, 0⟩, 1⟩] } "CUT"

set_option maxRecDepth 20000 in
theorem openFile_reads_bytes_small
    : (∃ stream after,
        openFile scatteredFile ({ volume := some smallVolume }, ())
          = .ok stream ({ volume := some smallVolume }, ())
        ∧ FileStream.read none (stream, ())
          = .ok [5, 1, 2, 1, 1] ({ stream with position := 5 }, after))
      ∧ ∃ stream truncation after,
        openFile cutFile ({ volume := some smallVolume }, ())
          = .ok stream ({ volume := some smallVolume }, ())
        ∧ FileStream.read none (stream, ()) = .error (.truncated truncation) (stream, after) := by
  have serves : smallVolume.source.Serves smallImage (fun _ => True) :=
    Source.Serves.ofContents ⟨smallImage.toArray⟩
  have isFile : scatteredFile.isDirectory = false ∧ cutFile.isDirectory = false := by decide
  have found : scatteredFile.record.data.bytesOn smallImage 1 = some [5, 1, 2, 1, 1] := by
    have inside : ∀ run ∈ scatteredFile.record.data.runs 1,
        0 < run.length → run.offset + run.length ≤ smallImage.length := by
      rw [length_smallImage]
      decide
    rw [FileData.bytesOn, if_pos inside]
    · rfl
    · intro bytes stored
      cases stored
  have missing : cutFile.record.data.bytesOn smallImage 1 = none := by
    have outside : ¬ ∀ run ∈ cutFile.record.data.runs 1,
        0 < run.length → run.offset + run.length ≤ smallImage.length := by
      rw [length_smallImage]
      decide
    rw [FileData.bytesOn, if_neg outside]
    intro bytes stored
    cases stored
  refine ⟨?_, ?_⟩
  · obtain ⟨stream, opened, -, answer⟩ := openFile_reads_bytes serves isFile.1 ()
    obtain ⟨after, -, read⟩ := (answer () trivial).1 _ found
    exact ⟨stream, after, opened, read⟩
  · obtain ⟨stream, opened, -, answer⟩ := openFile_reads_bytes serves isFile.2 ()
    obtain ⟨truncation, after, -, read⟩ := (answer () trivial).2 missing
    exact ⟨stream, truncation, after, opened, read⟩

end Reader

end DiscVolume
