import DiscVolume.Descriptor

/-! The records of a directory, one file identifier after the other. -/

namespace DiscVolume.Directory

/-- The record at the cursor, which must be a file identifier. -/
def record : Decoder FileIdentifier := do
  let descriptor ← Descriptor.decodeTagged DescriptorKind.fileIdentifier.tagNumber
  match descriptor.fileIdentifier? with
  | some identifier => pure identifier
  | none =>
      throw (.malformed (.tagMismatch DescriptorKind.fileIdentifier.tagNumber
        descriptor.kind.tagNumber))

instance : Decoder.Progressing record := by
  unfold record
  have (descriptor : Descriptor) : Decoder.Advancing (match descriptor.fileIdentifier? with
      | some identifier => (pure identifier : Decoder FileIdentifier)
      | none => throw (.malformed (.tagMismatch DescriptorKind.fileIdentifier.tagNumber
          descriptor.kind.tagNumber))) := by
    split <;> infer_instance
  infer_instance

/-- The records that start within the first size bytes of a buffer, up to the first that cannot
be read, and why it cannot.
-/
def records (size : Nat) (cursor : Cursor) : List FileIdentifier × Option Failure :=
  if cursor.offset < size then
    match h : record cursor with
    | .ok identifier next =>
        have : cursor.offset < next.offset := Decoder.Progressing.offset_lt h
        let (others, failure) := records size next
        (identifier :: others, failure)
    | .error failure _ => ([], some failure)
  else ([], none)
termination_by size - cursor.offset

/-- Whether a record names an entry: it has a name and is not the way back to the parent. -/
def names (identifier : FileIdentifier) : Bool :=
  !identifier.name.isEmpty && !identifier.isParent

end DiscVolume.Directory
