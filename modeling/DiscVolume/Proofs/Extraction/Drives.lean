import DiscVolume.Proofs.Directory.Siblings
import DiscVolume.Proofs.Extraction.Steps
import DiscVolume.Proofs.Volume.Verdicts

/-! While the image is not written to, a drive goes on answering from the same data. What is found
in a directory is then a matter of the data, however much has been read before.
-/

namespace DiscVolume.Extraction

open Sequencing

namespace Drive

/-- The image in a drive holds these data, and is read through a window that shows them. -/
structure Holds (data : ByteArray) (drive : Drive) : Prop where
  isFaithful : drive.image.IsFaithful
  contents_eq : drive.image.contents = data

variable {data : ByteArray} {drive : Drive} {capacity : Nat}

theorem Holds.fresh (data : ByteArray) : Holds data (freshDrive data) :=
  ⟨.ofContents data, rfl⟩

/-- The notes of a drive say nothing about its image. -/
theorem Holds.withNotes (holds : drive.Holds data) (notes : Notes)
    : Holds data { drive with notes := notes } :=
  ⟨holds.isFaithful, holds.contents_eq⟩

/-- A drive answers from the data in its image, and takes no notes of that. -/
theorem Holds.readExactly_eq (holds : drive.Holds data) (capacity offset length : Nat)
    : ∃ after : Drive, after.Holds data ∧ after.notes = drive.notes
        ∧ (source capacity).readExactly offset length drive
          = if (sliceOf data offset length).length = length then
              .ok (sliceOf data offset length) after
            else
              .error (.truncated (.medium length offset (sliceOf data offset length).length))
                after := by
  obtain ⟨isFaithful, rfl⟩ := holds
  obtain ⟨image, faithfulAfter, sameContents, answer⟩ := isFaithful.readAt_eq offset length
  refine ⟨{ drive with image }, ⟨faithfulAfter, sameContents⟩, rfl, ?_⟩
  refine Source.readExactly_of_counted ?_
  simp only [source, Source.within, WindowedFile.source, answer]
  by_cases full : (sliceOf drive.image.contents offset length).length = length
  · simp only [if_pos full]
  · simp only [if_neg full]

/-- A drive serves the data in its image. -/
theorem serves_source (covered : data.size ≤ capacity)
    : (source capacity).ServesToEnd data.data.toList (Holds data) where
  length_le_capacity := covered
  ready_note note drive holds := holds.withNotes _
  readExactly_eq offset length drive holds _ := by
    obtain ⟨after, holdsAfter, -, answer⟩ := holds.readExactly_eq capacity offset length
    rw [Source.slice_eq_sliceOf]
    exact ⟨after, holdsAfter, answer⟩
  readExactly_at_end offset length drive holds _ _ := by
    obtain ⟨after, holdsAfter, -, answer⟩ := holds.readExactly_eq capacity offset length
    rw [Source.slice_eq_sliceOf]
    exact ⟨after, holdsAfter, answer⟩

/-- A drive with certain data and notes. -/
structure Keeps (data : ByteArray) (notes : Notes) (drive : Drive) : Prop
    extends drive.Holds data where
  notes_eq : drive.notes = notes

/-- What is read from a drive is a matter of the data, and the notes are left alone. -/
theorem Holds.exists_answer (data : ByteArray) (capacity offset length : Nat)
    : ∃ outcome, ∀ drive : Drive, drive.Holds data
        → ∃ after : Drive, after.Holds data ∧ after.notes = drive.notes
            ∧ (source capacity).readExactly offset length drive = Access.settle outcome after := by
  refine ⟨if (sliceOf data offset length).length = length then .ok (sliceOf data offset length)
    else .error (.truncated (.medium length offset (sliceOf data offset length).length)),
    fun drive holds => ?_⟩
  obtain ⟨after, holdsAfter, sameNotes, answer⟩ := holds.readExactly_eq capacity offset length
  refine ⟨after, holdsAfter, sameNotes, ?_⟩
  rw [answer]
  split <;> rfl

theorem source_isSteady (data : ByteArray) (notes : Notes) (capacity : Nat)
    : (source capacity).IsSteady (Keeps data notes) := by
  intro offset length
  obtain ⟨outcome, answers⟩ := Holds.exists_answer data capacity offset length
  refine ⟨outcome, ?_⟩
  rintro drive ⟨holds, rfl⟩
  obtain ⟨after, holdsAfter, sameNotes, answer⟩ := answers drive holds
  exact ⟨after, ⟨holdsAfter, sameNotes⟩, answer⟩

/-- What can be read from a drive does not change, whatever notes are taken. -/
theorem source_isUnchanging (data : ByteArray) (capacity : Nat)
    : (source capacity).IsUnchanging (Holds data) where
  ready_note _ _ holds := holds.withNotes _
  isSteady offset length := by
    obtain ⟨outcome, answers⟩ := Holds.exists_answer data capacity offset length
    refine ⟨outcome, fun drive holds => ?_⟩
    obtain ⟨after, holdsAfter, -, answer⟩ := answers drive holds
    exact ⟨after, holdsAfter, answer⟩

end Drive

/-- What a step finds on data from which nothing has been read. -/
def found (data : ByteArray) (step : Access Drive α) : Except Failure α :=
  match step (freshDrive data) with
  | .ok value _ => .ok value
  | .error failure _ => .error failure

theorem found_eq_ok {data : ByteArray} {step : Access Drive α} {value : α}
    : found data step = .ok value ↔ ∃ after, step (freshDrive data) = .ok value after := by
  unfold found
  cases step (freshDrive data) with
  | ok other after => simp
  | error failure after => simp

theorem found_eq_error {data : ByteArray} {step : Access Drive α} {failure : Failure}
    : found data step = .error failure
      ↔ ∃ after, step (freshDrive data) = .error failure after := by
  unfold found
  cases step (freshDrive data) with
  | ok other after => simp
  | error failure after => simp

/-- A steady step finds on all drives with the same data what it finds on a fresh one. -/
theorem answers_found {data : ByteArray} {step : Access Drive α}
    (steady : step.IsSteady (Drive.Keeps data []))
    : step.Answers (Drive.Keeps data []) (found data step) := by
  obtain ⟨outcome, answers⟩ := steady
  obtain ⟨after, -, answer⟩ := answers (freshDrive data) ⟨.fresh data, rfl⟩
  have same : found data step = outcome := by
    cases outcome <;> simp only [found, answer] <;> rfl
  rwa [same]

/-- A volume that is found when the image is opened, and the drive after that. -/
def Opens (data : ByteArray) (volume : Volume Drive) (drive : Drive) : Prop :=
  openImage data (freshDrive data) = .ok volume drive

variable {data : ByteArray} {volume : Volume Drive} {drive : Drive} {options : Options}

/-- An open volume reads from the drive. -/
theorem Opens.source_eq (opens : Opens data volume drive)
    : volume.source = Drive.source data.size :=
  Volume.source_of_ofSupply rfl opens

/-- An open volume is served the data of the image. -/
theorem Opens.serves (opens : Opens data volume drive)
    : volume.source.ServesToEnd data.data.toList (Drive.Holds data) :=
  opens.source_eq ▸ Drive.serves_source (Nat.le_refl _)

/-- Opening an image changes nothing in it. -/
theorem Opens.holds (opens : Opens data volume drive) : drive.Holds data :=
  (Volume.ofSupply_failsOnly rfl (Drive.serves_source (Nat.le_refl _))).ready_of_ok
    (.fresh data) opens

theorem Opens.isSteady (opens : Opens data volume drive) (notes : Notes)
    : volume.source.IsSteady (Drive.Keeps data notes) :=
  opens.source_eq ▸ Drive.source_isSteady data notes data.size

end DiscVolume.Extraction
