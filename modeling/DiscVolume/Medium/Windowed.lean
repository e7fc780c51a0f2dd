import DiscVolume.Medium

/-! Files that are read through a window: more than is asked for is read ahead, and what the
window shows is not read again. A change of the file behind the window goes unnoticed until the
window moves on.
-/

namespace DiscVolume

/-- A file with a window on it. The next byte to be read is inside the window or right behind it. -/
structure WindowedFile where
  contents : ByteArray
  /-- The offset of the first byte of the window. -/
  start : Nat := 0
  /-- What the file held at that offset when the window came there. -/
  window : Bytes := []
  /-- How many bytes of the window have been passed. -/
  passed : Nat := 0

namespace WindowedFile

/-- How many bytes a window shows at most. -/
def windowSize : Nat := 4096

/-- The offset of the next byte to be read. -/
def position (file : WindowedFile) : Nat := file.start + file.passed

/-- Moves to an offset. The window stays where it is if the offset is inside it or right behind
it, unless it has been passed as a whole.
-/
def seek (file : WindowedFile) (offset : Nat) : WindowedFile :=
  if file.passed < file.window.length ∧ file.start ≤ offset
      ∧ offset ≤ file.start + file.window.length then
    { file with passed := offset - file.start }
  else { file with start := offset, window := [], passed := 0 }

/-- Reads as many bytes as are asked for, fewer at the end of the file. Bytes behind the window
are read in whole windows as far as possible, and a new window is put over the last of them.
-/
def read (file : WindowedFile) (count : Nat) : Bytes × WindowedFile :=
  let seen := (file.window.drop file.passed).take count
  if seen.length = count then (seen, { file with passed := file.passed + count })
  else
    let stop := file.start + file.window.length
    let missing := count - seen.length
    let skipped := missing / windowSize * windowSize
    let start := stop + skipped
    let window := if missing = skipped then [] else sliceOf file.contents start windowSize
    (seen ++ sliceOf file.contents stop missing,
      { file with start, window, passed := min (missing - skipped) window.length })

/-- The bytes at an offset, all of them and no more. There is nothing before the first byte. -/
def readAt (offset : Int) (length : Nat) : Access WindowedFile Bytes := fun file =>
  let (data, after) := (file.seek offset.toNat).read length
  if data.length = length then .ok data after
  else .error (.truncated (.medium length offset data.length)) after

/-- A source over a file of some capacity. -/
def source (capacity : Nat) : Source WindowedFile where
  readAt
  capacity

/-- Takes away all that the file holds. The window stays. -/
def clear (file : WindowedFile) : WindowedFile := { file with contents := .empty }

/-- Puts bytes behind those that the file holds. The window stays. -/
def append (data : Bytes) (file : WindowedFile) : WindowedFile :=
  { file with contents := file.contents ++ ⟨data.toArray⟩ }

/-- Whether the window shows what the file holds. -/
structure IsFaithful (file : WindowedFile) : Prop where
  window_eq : file.window = sliceOf file.contents file.start file.window.length
  passed_le : file.passed ≤ file.window.length

/-- A file that has not been read yet has nothing in its window. -/
theorem IsFaithful.ofContents (contents : ByteArray) : IsFaithful { contents } :=
  ⟨by simp [sliceOf_eq], Nat.zero_le _⟩

/-- Moving keeps the window or empties it. -/
theorem IsFaithful.seek {file : WindowedFile} (faithful : file.IsFaithful) (offset : Nat)
    : (file.seek offset).IsFaithful := by
  unfold WindowedFile.seek
  split
  · next within => exact ⟨faithful.window_eq, by simp only []; omega⟩
  · exact ⟨by simp [sliceOf_eq], Nat.zero_le _⟩

/-- Moving leads to the offset. -/
theorem position_seek (file : WindowedFile) (offset : Nat)
    : (file.seek offset).position = offset := by
  unfold WindowedFile.seek position
  split
  · simp only []
    omega
  · rfl

/-- Moving changes nothing in the file. -/
theorem contents_seek (file : WindowedFile) (offset : Nat)
    : (file.seek offset).contents = file.contents := by
  unfold WindowedFile.seek
  split <;> rfl

/-- Reading changes nothing in the file. -/
theorem contents_read (file : WindowedFile) (count : Nat)
    : (file.read count).2.contents = file.contents := by
  unfold read
  simp only []
  split <;> rfl

/-- Two slices that follow one another are one slice, as long as the first one is full. -/
theorem sliceOf_append (contents : ByteArray) (offset first second : Nat)
    : sliceOf contents offset first ++ sliceOf contents (offset + first) second
        = sliceOf contents offset (first + second) := by
  simp only [sliceOf_eq, List.take_add, List.drop_drop]

/-- What is seen through a faithful window is what the file holds at the position. -/
theorem IsFaithful.seen_eq {file : WindowedFile} (faithful : file.IsFaithful) (count : Nat)
    : (file.window.drop file.passed).take count
        = sliceOf file.contents file.position
            (min count (file.window.length - file.passed)) := by
  conv => lhs; rw [faithful.window_eq]
  simp only [sliceOf_eq, position, List.drop_take, List.take_take, List.drop_drop]

/-- Reading through a faithful window delivers what the file holds at the position. -/
theorem IsFaithful.read_eq {file : WindowedFile} (faithful : file.IsFaithful) (count : Nat)
    : (file.read count).1 = sliceOf file.contents file.position count := by
  have seen := faithful.seen_eq count
  have size_seen : ((file.window.drop file.passed).take count).length
      = min count (file.window.length - file.passed) := by simp
  unfold read
  simp only [size_seen]
  split
  · next all => simpa only [all] using seen
  · next notAll =>
      have passed_le := faithful.passed_le
      have rest : min count (file.window.length - file.passed)
          = file.window.length - file.passed := by omega
      have stop : file.start + file.window.length
          = file.position + (file.window.length - file.passed) := by
        unfold position
        omega
      simp only [seen, rest, stop]
      rw [sliceOf_append]
      congr 1
      omega

/-- Reading leaves a faithful window. -/
theorem IsFaithful.read {file : WindowedFile} (faithful : file.IsFaithful) (count : Nat)
    : (file.read count).2.IsFaithful := by
  have passed_le := faithful.passed_le
  unfold WindowedFile.read
  simp only []
  split
  · next all =>
      refine ⟨faithful.window_eq, ?_⟩
      simp only [List.length_take, List.length_drop] at all
      simp only []
      omega
  · refine ⟨?_, Nat.min_le_right _ _⟩
    simp only []
    split
    · simp [sliceOf_eq]
    · simp only [sliceOf_eq, List.length_take]
      rw [List.take_eq_take_iff]
      simp only [List.length_drop]
      omega

/-- Through a faithful window, the bytes at an offset are those that the file holds there, and the
file and the window stay in agreement.
-/
theorem IsFaithful.readAt_eq {file : WindowedFile} (faithful : file.IsFaithful)
    (offset length : Nat)
    : ∃ after : WindowedFile, after.IsFaithful ∧ after.contents = file.contents
        ∧ readAt offset length file =
            if (sliceOf file.contents offset length).length = length then
              .ok (sliceOf file.contents offset length) after
            else
              .error (.truncated
                (.medium length offset (sliceOf file.contents offset length).length)) after := by
  have data := (faithful.seek offset).read_eq length
  rw [contents_seek, position_seek] at data
  refine ⟨((file.seek offset).read length).2, (faithful.seek offset).read length,
    by rw [contents_read, contents_seek], ?_⟩
  simp only [readAt, Int.toNat_natCast, data]

end WindowedFile

end DiscVolume
