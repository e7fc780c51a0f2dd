import DiscVolume.Failure
import DiscVolume.Text.Quoted

/-! Where images are read from. A source answers requests for the bytes at an offset. What a
request leaves behind, such as the position of a shared file, is the state of the medium, which
every reading step takes and returns.
-/

namespace DiscVolume

/-- A step that reads from a medium, whose state it keeps when it fails. -/
abbrev Access (σ : Type) := EStateM Failure σ

/-- What a reader tells about its progress. -/
inductive Note where
  | opening
  | recognitionRead (count : Nat)
  | sequenceRead (count sector : Nat)
  | directoryRead (count : Nat) (path : String)
  deriving DecidableEq, Repr

def Note.message : Note → String
  | .opening => "Opening UDF image"
  | .recognitionRead count => "Read " ++ toString count ++ " CD-ROM volume descriptors"
  | .sequenceRead count sector =>
      "Read " ++ toString count
        ++ " descriptors from the main volume descriptor sequence at sector " ++ toString sector
  | .directoryRead count path =>
      "Read " ++ toString count ++ " entries from directory " ++ Text.quoted path

/-- A source of bytes over media in a state σ. -/
structure Source (σ : Type) where
  /-- The bytes that are asked for; too few or too many are told apart by their number. What an
  offset before the first byte stands for is up to the source.
  -/
  readAt : (offset : Int) → (length : Nat) → Access σ Bytes
  /-- No byte at this offset or after it is delivered while the medium holds what it held. -/
  capacity : Nat
  /-- Takes note of the progress of a reader. -/
  note : Note → σ → σ := fun _ medium => medium

namespace Access

/-- The value of a step that reads nothing. -/
def settle : Except Failure α → Access σ α
  | .ok value => pure value
  | .error failure => throw failure

/-- Reports a fault that concerns the data of the medium as a defect of the image. -/
def blaming (activity : Activity) (step : Access σ α) : Access σ α := fun medium =>
  match step medium with
  | .error (.medium fault) after =>
      if fault.kind.concernsData then
        .error (.malformed (.reportedByMedium activity fault.message)) after
      else .error (.medium fault) after
  | result => result

end Access

namespace Source

/-- The bytes at an offset, all of them and no more. -/
def readExactly (source : Source σ) (offset : Int) (length : Nat) : Access σ Bytes := do
  let data ← source.readAt offset length
  if data.length = length then return data
  else throw (.truncated (.medium length offset data.length))

/-- Takes note of progress as a step of its own. -/
def tell (source : Source σ) (note : Note) : Access σ Unit :=
  modify (source.note note)

/-- A source over one part of a larger state. -/
def within (source : Source σ) (part : τ → σ) (replace : σ → τ → τ) : Source τ where
  readAt offset length whole :=
    match source.readAt offset length (part whole) with
    | .ok data after => .ok data (replace after whole)
    | .error failure after => .error failure (replace after whole)
  capacity := source.capacity
  note note whole := replace (source.note note (part whole)) whole

end Source

/-- The bytes of packed contents from an offset on; fewer at the end. Both ends are cut to the
contents, which are far smaller than offsets may be.
-/
def sliceOf (contents : ByteArray) (offset length : Nat) : Bytes :=
  (contents.extract (min offset contents.size) (min (offset + length) contents.size)).data.toList

/-- Slicing packed contents is dropping and taking in the list they hold. -/
theorem sliceOf_eq (contents : ByteArray) (offset length : Nat)
    : sliceOf contents offset length = (contents.data.toList.drop offset).take length := by
  have size_eq : contents.size = contents.data.toList.length := rfl
  rw [sliceOf, ByteArray.data_extract, Array.toList_extract, List.extract, size_eq]
  generalize contents.data.toList = bytes
  by_cases within : offset ≤ bytes.length
  · rw [Nat.min_eq_left within, List.take_eq_take_iff]
    simp only [List.length_drop]
    omega
  · rw [List.drop_eq_nil_of_le (by omega), List.drop_eq_nil_of_le (by omega)]
    simp

/-- The bytes of packed contents from one place up to another. A place below zero is counted from
the end.
-/
def sliceBetween (contents : ByteArray) (start stop : Int) : Bytes :=
  let place (index : Int) : Nat :=
    (if index < 0 then index + contents.size else index).toNat
  sliceOf contents (place start) (place stop - place start)

/-- From a place that is not negative on, the length says how many bytes there are. -/
theorem sliceBetween_ofNat (contents : ByteArray) (offset length : Nat)
    : sliceBetween contents offset (offset + length) = sliceOf contents offset length := by
  have notNegative (n : Nat) : ¬ (n : Int) < 0 := by omega
  simp only [sliceBetween, ← Int.natCast_add, notNegative, if_false, Int.toNat_natCast,
    Nat.add_sub_cancel_left]

/-- A source that answers from packed contents and has no state. -/
def Source.ofContents (contents : ByteArray) : Source σ where
  readAt offset length := pure (sliceBetween contents offset (offset + length))
  capacity := contents.size

/-- Offsets and sizes that files can deal with are of less than this size; the least one has just
this size.
-/
def indexLimit : Int := 0x8000000000000000

/-- Whether files can deal with a number as an offset or a size. -/
def isIndex (number : Int) : Bool := -indexLimit ≤ number && number < indexLimit

/-- A binary file that is read from a position of its own. -/
structure ImageFile where
  contents : ByteArray
  position : Nat := 0
  isOpen : Bool := true

namespace ImageFile

/-- Moves the position of an open file. -/
def seek (offset : Int) : Access ImageFile Unit := fun file =>
  if !isIndex offset then .error (.medium .offsetTooLarge) file
  else if !file.isOpen then .error (.medium .closedFile) file
  else if offset < 0 then .error (.medium (.negativeSeek offset)) file
  else .ok () { file with position := offset.toNat }

/-- The next bytes of an open file, fewer at its end. A negative number stands for all. -/
def read (count : Int) : Access ImageFile Bytes := fun file =>
  if !isIndex count then .error (.medium .countTooLarge) file
  else if !file.isOpen then .error (.medium .closedFile) file
  else
    let wanted := if count < 0 then file.contents.size else count.toNat
    let data := sliceOf file.contents file.position wanted
    .ok data { file with position := file.position + data.length }

/-- The bytes at an offset, whatever the position was before. -/
def readAt (offset length : Int) : Access ImageFile Bytes := do
  seek offset
  let data ← read length
  if data.length = length then return data
  else throw (.truncated (.medium length offset data.length))

def close (file : ImageFile) : ImageFile := { file with isOpen := false }

/-- A source over a file of some capacity, whose position all its readers share. -/
def source (capacity : Nat) : Source ImageFile where
  readAt offset length := readAt offset length
  capacity

end ImageFile

/-- What is known about the form of a file. -/
inductive FileForm where
  | declared (mode : String)
  | byteStream
  | textStream
  | bufferedStream
  | rawStream
  | other
  deriving DecidableEq, Repr

/-- Whether a file delivers bytes: its declared mode decides, or else the form of stream. -/
def FileForm.isBinary : FileForm → Bool
  | .declared mode => mode.toList.contains 'b'
  | .byteStream | .bufferedStream | .rawStream => true
  | .textStream | .other => false

/-- What a reader is given to read from. -/
inductive Supply (σ : Type) where
  | direct (source : Source σ)
  | file (form : FileForm) (source : Source σ)

/-- The source that a supply stands for; files must be binary. -/
def Supply.toSource : Supply σ → Except Failure (Source σ)
  | .direct source => .ok source
  | .file form source => if form.isBinary then .ok source else .error (.misused .textFile)

end DiscVolume
