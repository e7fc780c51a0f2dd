import DiscVolume.Medium.Windowed
import DiscVolume.Proofs.Sequencing

/-! Sources that deliver an image. Whatever a source keeps about its medium between requests, all
that matters of it is which bytes it answers with; the sources that are opened on packed contents,
on files and on windowed files all answer from the contents they were opened on.
-/

namespace DiscVolume

open Sequencing

/-- The bytes of an image from an offset on, fewer at its end. -/
def Bytes.slice (image : Bytes) (offset length : Nat) : Bytes := (image.drop offset).take length

namespace Bytes

theorem length_slice {image : Bytes} {offset length : Nat} (h : offset + length ≤ image.length)
    : (image.slice offset length).length = length := by
  rw [slice, List.length_take_of_le]
  rw [List.length_drop]
  omega

/-- A slice of a slice is a slice. -/
theorem slice_slice {image : Bytes} {offset length start count : Nat}
    (inside : start + count ≤ length)
    : (image.slice offset length).slice start count = image.slice (offset + start) count := by
  simp only [slice, List.drop_take, List.take_take, List.drop_drop]
  rw [Nat.min_eq_left (by omega)]

/-- A slice that starts behind the first of two byte strings is one of the second. -/
theorem slice_append_of_le {first second : Bytes} {start count : Nat}
    (h : first.length ≤ start)
    : (first ++ second).slice start count = second.slice (start - first.length) count := by
  rw [slice, List.drop_append, List.drop_eq_nil_of_le h, List.nil_append, slice]

/-- A slice that starts in the first of two byte strings may go on in the second. -/
theorem slice_append {first second : Bytes} {start count : Nat} (h : start ≤ first.length)
    : (first ++ second).slice start count
      = first.slice start (min (first.length - start) count)
        ++ second.slice 0 (count - (first.length - start)) := by
  rw [slice, List.drop_append_of_le_length h, List.take_append, List.length_drop, slice, slice,
    List.drop_zero]
  congr 1
  rw [List.take_eq_take_iff, List.length_drop]
  omega

end Bytes

namespace Source

/-- A source answers from the bytes of an image as long as its medium is ready, and leaves the
medium ready. Requests for bytes inside the image get all of them. Other requests fall short,
provided that files can deal with their numbers.
-/
structure Serves (source : Source σ) (image : Bytes) (ready : σ → Prop) : Prop where
  length_le_capacity : image.length ≤ source.capacity
  ready_note : ∀ note medium, ready medium → ready (source.note note medium)
  readExactly_eq : ∀ offset length medium, ready medium
    → offset + length ≤ image.length ∨ (offset < indexLimit ∧ length < indexLimit)
    → ∃ after, ready after
      ∧ source.readExactly offset length medium
        = if (image.slice offset length).length = length then .ok (image.slice offset length) after
          else .error (.truncated (.medium length offset (image.slice offset length).length)) after

/-- Inside the image all bytes that are asked for are delivered. -/
theorem Serves.readExactly_eq_ok {source : Source σ} {image : Bytes} {ready : σ → Prop}
    {offset length : Nat} {medium : σ} (serves : source.Serves image ready)
    (isReady : ready medium) (inside : offset + length ≤ image.length)
    : ∃ after, ready after
        ∧ source.readExactly offset length medium = .ok (image.slice offset length) after := by
  obtain ⟨after, readyAfter, answer⟩ :=
    serves.readExactly_eq offset length medium isReady (.inl inside)
  rw [if_pos (Bytes.length_slice inside)] at answer
  exact ⟨after, readyAfter, answer⟩

/-- A request for bytes that are not all there falls short. -/
theorem Serves.readExactly_eq_error {source : Source σ} {image : Bytes} {ready : σ → Prop}
    {offset length : Nat} {medium : σ} (serves : source.Serves image ready)
    (isReady : ready medium) (offsetBounded : (offset : Int) < indexLimit)
    (lengthBounded : (length : Int) < indexLimit) (wanted : 0 < length)
    (beyond : image.length < offset + length)
    : ∃ truncation after, ready after
        ∧ source.readExactly offset length medium = .error (.truncated truncation) after := by
  obtain ⟨after, readyAfter, answer⟩ :=
    serves.readExactly_eq offset length medium isReady (.inr ⟨offsetBounded, lengthBounded⟩)
  have short : (image.slice offset length).length ≠ length := by
    simp only [Bytes.slice, List.length_take, List.length_drop]
    omega
  rw [if_neg short] at answer
  exact ⟨_, after, readyAfter, answer⟩

/-- A source that serves an image and also answers where the image ends, however large it is. -/
structure ServesToEnd (source : Source σ) (image : Bytes) (ready : σ → Prop) : Prop
    extends source.Serves image ready where
  readExactly_at_end : ∀ (offset length : Nat) medium, ready medium → offset ≤ image.length
    → (length : Int) < indexLimit
    → ∃ after, ready after
      ∧ source.readExactly offset length medium
        = if (image.slice offset length).length = length then .ok (image.slice offset length) after
          else .error (.truncated (.medium length offset (image.slice offset length).length)) after

/-- The exact answer to a request that is known to succeed or to fail. -/
theorem readExactly_of_readAt {source : Source σ} {offset : Int} {length : Nat} {data : Bytes}
    {medium after : σ} (answer : source.readAt offset length medium = .ok data after)
    : source.readExactly offset length medium
      = if data.length = length then .ok data after
        else .error (.truncated (.medium length offset data.length)) after := by
  rw [readExactly, bind_of_ok answer]
  split <;> rfl

/-- A source that counts the bytes itself gives the same answer when they are counted again. -/
theorem readExactly_of_counted {source : Source σ} {offset : Int} {length : Nat} {data : Bytes}
    {medium after : σ}
    (answer : source.readAt offset length medium
      = if data.length = length then .ok data after
        else .error (.truncated (.medium length offset data.length)) after)
    : source.readExactly offset length medium
      = if data.length = length then .ok data after
        else .error (.truncated (.medium length offset data.length)) after := by
  split at answer
  · next full =>
      rw [readExactly_of_readAt answer]
  · next short =>
      rw [if_neg short]
      exact bind_of_error answer

theorem slice_eq_sliceOf (contents : ByteArray) (offset length : Nat)
    : Bytes.slice contents.data.toList offset length = sliceOf contents offset length :=
  (sliceOf_eq contents offset length).symm

/-- Packed contents are served in any state. -/
theorem Serves.ofContents (contents : ByteArray)
    : (Source.ofContents contents : Source σ).Serves contents.data.toList (fun _ => True) where
  length_le_capacity := Nat.le_refl _
  ready_note _ _ isReady := isReady
  readExactly_eq offset length medium _ _ := by
    refine ⟨medium, trivial, ?_⟩
    rw [slice_eq_sliceOf, ← sliceBetween_ofNat]
    exact readExactly_of_readAt rfl

theorem ServesToEnd.ofContents (contents : ByteArray)
    : (Source.ofContents contents : Source σ).ServesToEnd contents.data.toList
        (fun _ => True) where
  toServes := .ofContents contents
  readExactly_at_end offset length medium _ _ _ := by
    refine ⟨medium, trivial, ?_⟩
    rw [slice_eq_sliceOf, ← sliceBetween_ofNat]
    exact readExactly_of_readAt rfl

end Source

namespace ImageFile

/-- A file that is open on some contents. -/
structure Holds (contents : ByteArray) (file : ImageFile) : Prop where
  isOpen : file.isOpen = true
  contents_eq : file.contents = contents

theorem isIndex_of_lt {number : Nat} (h : (number : Int) < indexLimit) : isIndex number = true := by
  rw [isIndex, Bool.and_eq_true, decide_eq_true_eq, decide_eq_true_eq]
  exact ⟨by unfold indexLimit; omega, h⟩

/-- Moving an open file leads to the offset. -/
theorem seek_eq_ok {file : ImageFile} {offset : Nat} (isOpen : file.isOpen = true)
    (bounded : (offset : Int) < indexLimit)
    : seek offset file = .ok () { file with position := offset } := by
  have notNegative : ¬ (offset : Int) < 0 := by omega
  simp [seek, isIndex_of_lt bounded, isOpen, notNegative]

/-- An open file answers with what it holds, and moves behind it. -/
theorem readAt_eq {contents : ByteArray} {file : ImageFile} {offset length : Nat}
    (holds : file.Holds contents) (offsetBounded : (offset : Int) < indexLimit)
    (lengthBounded : (length : Int) < indexLimit)
    : ∃ after : ImageFile, after.Holds contents
        ∧ readAt offset length file
          = if (sliceOf contents offset length).length = length then
              .ok (sliceOf contents offset length) after
            else
              .error (.truncated (.medium length offset (sliceOf contents offset length).length))
                after := by
  obtain ⟨isOpen, rfl⟩ := holds
  refine ⟨{ file with position := offset + (sliceOf file.contents offset length).length },
    ⟨isOpen, rfl⟩, ?_⟩
  have notNegative : ¬ (length : Int) < 0 := by omega
  have delivered : read length { file with position := offset }
      = .ok (sliceOf file.contents offset length)
          { file with position := offset + (sliceOf file.contents offset length).length } := by
    simp [read, isIndex_of_lt lengthBounded, isOpen, notNegative]
  rw [readAt, bind_of_ok (seek_eq_ok isOpen offsetBounded), bind_of_ok delivered]
  simp only [Int.natCast_inj]
  split <;> rfl

/-- Files are served while they are open, as long as they are no larger than files can be. -/
theorem serves_source {contents : ByteArray} {capacity : Nat}
    (bounded : (contents.size : Int) < indexLimit) (covered : contents.size ≤ capacity)
    : (source capacity).Serves contents.data.toList (Holds contents) where
  length_le_capacity := covered
  ready_note _ _ holds := holds
  readExactly_eq offset length file holds request := by
    have size : contents.data.toList.length = contents.size := rfl
    have offsetBounded : (offset : Int) < indexLimit := by omega
    have lengthBounded : (length : Int) < indexLimit := by omega
    obtain ⟨after, holdsAfter, answer⟩ := readAt_eq holds offsetBounded lengthBounded
    rw [Source.slice_eq_sliceOf]
    exact ⟨after, holdsAfter, Source.readExactly_of_counted answer⟩

/-- The end of a file is at an offset that files can deal with. -/
theorem servesToEnd_source {contents : ByteArray} {capacity : Nat}
    (bounded : (contents.size : Int) < indexLimit) (covered : contents.size ≤ capacity)
    : (source capacity).ServesToEnd contents.data.toList (Holds contents) where
  toServes := serves_source bounded covered
  readExactly_at_end offset length file holds inside lengthBounded := by
    have size : contents.data.toList.length = contents.size := rfl
    exact (serves_source bounded covered).readExactly_eq offset length file holds
      (.inr ⟨by omega, lengthBounded⟩)

end ImageFile

namespace WindowedFile

/-- Windowed files are served as long as the window shows what the file holds. -/
theorem serves_source {contents : ByteArray} {capacity : Nat} (covered : contents.size ≤ capacity)
    : (source capacity).Serves contents.data.toList
        (fun file => file.IsFaithful ∧ file.contents = contents) where
  length_le_capacity := covered
  ready_note _ _ isReady := isReady
  readExactly_eq offset length file isReady _ := by
    obtain ⟨faithful, rfl⟩ := isReady
    obtain ⟨after, faithfulAfter, same, answer⟩ := faithful.readAt_eq offset length
    rw [Source.slice_eq_sliceOf]
    exact ⟨after, ⟨faithfulAfter, same⟩, Source.readExactly_of_counted answer⟩

theorem servesToEnd_source {contents : ByteArray} {capacity : Nat}
    (covered : contents.size ≤ capacity)
    : (source capacity).ServesToEnd contents.data.toList
        (fun file => file.IsFaithful ∧ file.contents = contents) where
  toServes := serves_source covered
  readExactly_at_end offset length file isReady _ _ := by
    obtain ⟨faithful, rfl⟩ := isReady
    obtain ⟨after, faithfulAfter, same, answer⟩ := faithful.readAt_eq offset length
    rw [Source.slice_eq_sliceOf]
    exact ⟨after, ⟨faithfulAfter, same⟩, Source.readExactly_of_counted answer⟩

end WindowedFile

end DiscVolume
