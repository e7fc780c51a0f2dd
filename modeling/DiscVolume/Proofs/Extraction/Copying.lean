import DiscVolume.Proofs.Extraction.Walk
import DiscVolume.Proofs.FileStream.Copying
import DiscVolume.Proofs.Volume.FileContents

/-! Visits that copy files. A file that can be read is copied in full, and the image goes on holding
its data as long as the copy does not take its place. So every entry can be visited where all
directories and files can be read.
-/

namespace DiscVolume

open Sequencing

namespace Volume

variable {volume : Volume σ} {image : Bytes} {ready : σ → Prop} {entry : Entry}
variable {medium after : σ} {bytes : Bytes}

/-- Files are opened at their start. -/
theorem openFile_ok (isFile : entry.isDirectory = false)
    : volume.openFile entry = .ok { contents := volume.contentsOf entry } := by
  rw [openFile, if_neg (by simp [isFile])]

/-- What is read of a file is played by a stream over its contents. -/
theorem read_of_readFile (isFile : entry.isDirectory = false)
    (found : volume.readFile entry medium = .ok bytes after)
    : ∃ stream, FileStream.read none ({ contents := volume.contentsOf entry }, medium)
        = .ok bytes (stream, after) := by
  obtain ⟨stream, _, settled, played⟩ := bind_ok_iff.mp found
  obtain ⟨opened, rfl⟩ := Access.settle_eq_ok.mp settled
  rw [openFile_ok isFile] at opened
  cases opened
  split at played
  · next delivered later result =>
      cases played
      exact ⟨later.1, result⟩
  · cases played

/-- A file that can be read contains what is read of it. -/
theorem contentsOf_holds_of_readFile (serves : volume.source.Serves image ready)
    (isReady : ready medium) (isFile : entry.isDirectory = false)
    (found : volume.readFile entry medium = .ok bytes after)
    : (volume.contentsOf entry).Holds bytes ready := by
  obtain ⟨stream, played⟩ := read_of_readFile isFile found
  cases recorded :
      entry.record.data.bytesOn image volume.partition.startLocation.toNat with
  | none =>
      obtain ⟨_, _, -, failed⟩ := read_of_bytesOn_none serves isReady recorded
      rw [failed] at played
      cases played
  | some others =>
      have holds := contentsOf_holds serves recorded
      obtain ⟨_, -, whole⟩ := FileStream.read_of_holds holds isReady
      rw [whole] at played
      cases played
      exact holds

/-- What a file contains is read of it. -/
theorem readFile_of_holds (isFile : entry.isDirectory = false)
    (contains : (volume.contentsOf entry).Holds bytes ready) (isReady : ready medium)
    : ∃ after, ready after ∧ volume.readFile entry medium = .ok bytes after := by
  obtain ⟨after, readyAfter, whole⟩ := FileStream.read_of_holds contains isReady
  refine ⟨after, readyAfter, ?_⟩
  have opened : Access.settle (volume.openFile entry) medium
      = .ok { contents := volume.contentsOf entry } medium := by
    rw [openFile_ok isFile]
    rfl
  have played : FileStream.readAll ({ contents := volume.contentsOf entry }, medium)
      = .ok bytes ({ contents := volume.contentsOf entry, position := bytes.length }, after) :=
    whole
  refine (bind_of_ok opened).trans ?_
  simp only [played]

end Volume

namespace Extraction

variable {options : Options} {data : ByteArray} {volume : Volume Drive} {drive : Drive}

/-- Contents are copied in full, and the image stays as it is unless the copy takes its place. -/
theorem copyOut_of_holds {contents : Contents Drive} {bytes : Bytes} {path : String}
    (contains : contents.Holds bytes (Drive.Holds data)) (holds : drive.Holds data)
    (apart : HostPath.isSame path options.image = false)
    : ∃ after : Drive, after.Holds data
        ∧ copyOut options { contents } drive path = ⟨[.writeFile path bytes], .ok [], after⟩ := by
  have plays : FileStream.Plays ({ contents }, drive) { contents := bytes } (Drive.Holds data) :=
    { isReady := holds, holds := contains, position_eq := rfl, isOpen_eq := rfl }
  have positive : 0 < blockSize := by decide
  obtain ⟨after, holdsAfter, copied⟩ := plays.copy rfl positive (fun _ _ _ playsOn => playsOn)
  refine ⟨after.2, holdsAfter, ?_⟩
  have all : contents.length.toNat = bytes.length := by
    rw [contains.length_eq, Int.toNat_natCast]
  simp only [Tape.rest, List.drop_zero] at copied
  simp only [copyOut, apart, all, Bool.false_eq_true, if_false, copied]

/-- A file that can be read is copied, unless the copy takes the place of the image. -/
theorem canVisit_copied {file : Entry} {bytes : Bytes} (opens : Opens data volume drive)
    (extracts : options.listsOnly = false) (isFile : file.isDirectory = false)
    (readable : found data (volume.readFile file) = .ok bytes)
    (apart : HostPath.isSame (outputPath options.destination file) options.image = false)
    : CanVisit options data volume file (doings options data volume file) := by
  intro later holds
  obtain ⟨_, fresh⟩ := found_eq_ok.mp readable
  have contains := Volume.contentsOf_holds_of_readFile opens.serves.toServes (.fresh data) isFile
    fresh
  obtain ⟨after, holdsAfter, copied⟩ := copyOut_of_holds contains holds apart
  refine ⟨after, holdsAfter, ?_⟩
  have noChildren : safeChildren data volume file = [] := by
    simp [safeChildren, isFile]
  simp only [visit, Visit.of, isFile, visitFile, extracts, Volume.openFile_ok isFile, copied,
    noChildren, doings, written?, reports, readable, Bool.false_eq_true, if_false, List.map_nil]
  rfl

/-- All files that are reached can be read, and none of them is extracted to where the image is. -/
structure IsCopyable (options : Options) (data : ByteArray) (volume : Volume Drive) : Prop where
  exists_bytes : ∀ file, IsReached data volume file → file.isDirectory = false
    → ∃ bytes, found data (volume.readFile file) = .ok bytes
  isApart : ∀ file, IsReached data volume file → file.isDirectory = false
    → HostPath.isSame (outputPath options.destination file) options.image = false

/-- Where all directories and files can be read, every entry can be visited. -/
theorem IsReadable.canVisit {entry : Entry} (readable : IsReadable data volume)
    (opens : Opens data volume drive)
    (copyable : options.listsOnly = false → IsCopyable options data volume)
    (reached : IsReached data volume entry)
    : CanVisit options data volume entry (doings options data volume entry) := by
  cases isDirectory : entry.isDirectory with
  | true =>
      obtain ⟨children, listed⟩ := readable.exists_children entry reached isDirectory
      exact canVisit_directory opens isDirectory listed
  | false =>
      cases extracts : options.listsOnly with
      | true => exact canVisit_listed extracts isDirectory
      | false =>
          obtain ⟨bytes, isRead⟩ := (copyable extracts).exists_bytes entry reached isDirectory
          exact canVisit_copied opens extracts isDirectory isRead
            ((copyable extracts).isApart entry reached isDirectory)

/-- Where all can be read, each depth is reached. -/
theorem IsReadable.takes_down {root : Entry} (readable : IsReadable data volume)
    (opens : Opens data volume drive)
    (copyable : options.listsOnly = false → IsCopyable options data volume)
    (isRoot : found data volume.root = .ok root) (depth : Nat)
    : ∃ after : Drive, after.Holds data
        ∧ Takes options (levels (safeChildren data volume) depth [root]).length
            (enterRoot options volume drive).2
            ((levels (safeChildren data volume) depth [root]).flatMap
              (doings options data volume))
            (.walking volume after
              ((level (safeChildren data volume) depth [root]).map (.of options))) := by
  refine Extraction.takes_down opens isRoot (fun entry member => ?_)
  obtain ⟨above, -, onLevel⟩ := (mem_levels _).mp member
  exact readable.canVisit opens copyable (isReached_of_mem_level isRoot onLevel)

end Extraction

end DiscVolume
