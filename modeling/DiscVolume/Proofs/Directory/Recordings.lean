import DiscVolume.Proofs.Cursor.Text
import DiscVolume.Proofs.Directory.Spelling
import DiscVolume.Proofs.Text.Utf16

/-! Directories as they are recorded: one record after the other, each with a stamped tag, its
name in one of three forms and zeros up to a multiple of four. Reading them in turn finds them all
and ends with the last byte.
-/

namespace DiscVolume

open Decoder

/-- The ways to record a name. -/
inductive NameForm where
  /-- Without any bytes. -/
  | absent
  /-- In single bytes, behind their compression identifier. -/
  | singleByte
  /-- In two-byte units, behind their compression identifier. -/
  | doubleByte
  deriving DecidableEq, Repr

namespace NameForm

/-- Whether a name can be recorded in a form. -/
def Fits : NameForm → String → Prop
  | absent, name => name = ""
  | singleByte, name => Bytes.IsLatin1 name
  | doubleByte, _ => True

def bytes : NameForm → String → Bytes
  | absent, _ => []
  | singleByte, name => Decoder.singleByte :: Bytes.ofText name
  | doubleByte, name => Decoder.doubleByte :: Text.Utf16.encode name.toList

/-- In every form a name is spelled that fits it. -/
theorem Fits.spellsName {form : NameForm} {name : String} (fits : form.Fits name)
    : FileIdentifier.SpellsName (form.bytes name) name := by
  cases form with
  | absent =>
      cases fits
      exact .empty
  | singleByte =>
      refine .text _ _ _ ?_
      rw [dcharactersText, if_pos rfl, Bytes.latin1_ofText fits]
  | doubleByte =>
      refine .text _ _ _ ?_
      rw [dcharactersText, if_neg (by decide), if_pos rfl, Text.Utf16.decode_encode]
      simp only [String.ofList_toList]

end NameForm

/-- A file identifier to be recorded, the form that its name is recorded in, and the bytes for the
use of implementations that its allocation descriptor ends with.
-/
structure Recording where
  identifier : FileIdentifier
  form : NameForm
  icbUse : Bytes
  deriving DecidableEq, Repr

namespace Recording

def nameBytes (recording : Recording) : Bytes := recording.form.bytes recording.identifier.name

/-- Zeros up to the next multiple of four. -/
def filler (recording : Recording) : Bytes :=
  let length := 38 + recording.identifier.implementationUse.length + recording.nameBytes.length
  .replicate ((4 - length % 4) % 4) 0

def body (recording : Recording) : Bytes :=
  recording.identifier.body recording.icbUse recording.nameBytes recording.filler

/-- The file identifier with the check values that it is recorded with. -/
def stamped (recording : Recording) : FileIdentifier :=
  { recording.identifier with tag := recording.identifier.tag.stamped recording.body }

/-- The bytes of a record. -/
def bytes (recording : Recording) : Bytes := recording.stamped.tag.bytes ++ recording.body

/-- The bytes of records one after the other. -/
def inSequence (recordings : List Recording) : Bytes := recordings.flatMap bytes

/-- A record that can be written down. Byte fields have the sizes that are recorded for them, and
the tag covers no more than the body.
-/
structure IsRecordable (recording : Recording) : Prop where
  named : recording.identifier.tag.identifier = DescriptorKind.fileIdentifier.tag
  known : recording.identifier.tag.version = 2 ∨ recording.identifier.tag.version = 3
  covered : recording.identifier.tag.crcLength.toNat ≤ recording.body.length
  icbUse : recording.icbUse.length = 6
  implementationUse : recording.identifier.implementationUse.length
    = recording.identifier.implementationUseLength.toNat
  fits : recording.form.Fits recording.identifier.name
  nameLength : recording.nameBytes.length = recording.identifier.nameLength.toNat

variable {recording : Recording}

/-- A recordable record is spelled by its bytes. -/
def IsRecordable.spelling (recordable : recording.IsRecordable)
    : FileIdentifier.Spelling recording.stamped where
  tagBytes := recording.stamped.tag.bytes
  icbUse := recording.icbUse
  nameBytes := recording.nameBytes
  filler := recording.filler
  length_tagBytes := Tag.length_bytes _
  tag_eq := Tag.ofBytes_bytes _
  kind_eq := recordable.named
  isSealed := (Tag.heads_stamped recordable.named recordable.known recordable.covered).isSealed
  length_icbUse := recordable.icbUse
  length_use := recordable.implementationUse
  length_name := recordable.nameLength
  spellsName := recordable.fits.spellsName
  length_filler := by
    rw [filler, List.length_replicate]
    omega
  aligned := by
    simp only [FileIdentifier.body, stamped, LongAllocation.spelled, filler, List.length_append,
      Bytes.length_ofNat, List.length_replicate, recordable.icbUse, Tag.size]
    omega

theorem IsRecordable.bytes_spelling (recordable : recording.IsRecordable)
    : recordable.spelling.bytes = recording.bytes :=
  rfl

/-- Every record ends at a multiple of four from its start. -/
theorem IsRecordable.aligned (recordable : recording.IsRecordable)
    : 4 ∣ recording.bytes.length := by
  rw [← recordable.bytes_spelling, FileIdentifier.Spelling.bytes, List.length_append,
    recordable.spelling.length_tagBytes]
  exact recordable.spelling.aligned

theorem inSequence_append (first second : List Recording)
    : inSequence (first ++ second) = inSequence first ++ inSequence second :=
  List.flatMap_append

theorem inSequence_cons (recording : Recording) (others : List Recording)
    : inSequence (recording :: others) = recording.bytes ++ inSequence others :=
  List.flatMap_cons

@[simp]
theorem inSequence_singleton (recording : Recording) : inSequence [recording] = recording.bytes :=
  List.append_nil _

variable {recordings : List Recording}

theorem aligned_inSequence (recordable : ∀ recording ∈ recordings, recording.IsRecordable)
    : 4 ∣ (inSequence recordings).length := by
  induction recordings with
  | nil => exact Nat.dvd_zero 4
  | cons recording others ih =>
      rw [inSequence_cons, List.length_append]
      exact Nat.dvd_add (recordable _ (.head _)).aligned
        (ih fun other found => recordable other (.tail _ found))

theorem spells_inSequence (recordable : ∀ recording ∈ recordings, recording.IsRecordable)
    : Directory.Spells (recordings.map stamped) (inSequence recordings) := by
  induction recordings with
  | nil => exact .nil
  | cons recording others ih =>
      exact .cons (recordable _ (.head _)).spelling
        (ih fun other found => recordable other (.tail _ found))

end Recording

open Recording

/-- Records in sequence are read back as they were recorded. Read in turn up to the end of their
bytes they are found in order, and nothing fails. Each of them is decoded where the records before
it end, and reading stops where it ends itself, which is a multiple of four; behind the last of
them nothing is left.
-/
theorem Directory.records_inSequence {recordings : List Recording}
    (recordable : ∀ recording ∈ recordings, recording.IsRecordable)
    : records (inSequence recordings).length (.ofBytes (inSequence recordings))
        = (recordings.map stamped, none)
      ∧ ∀ before recording behind, recordings = before ++ recording :: behind
        → Descriptor.decodeTagged DescriptorKind.fileIdentifier.tagNumber
              ⟨(inSequence before).length, inSequence (recording :: behind)⟩
            = .ok (.fileIdentifier recording.stamped)
                ⟨(inSequence (before ++ [recording])).length, inSequence behind⟩
          ∧ 4 ∣ (inSequence (before ++ [recording])).length := by
  constructor
  · have found := (spells_inSequence recordable).records_eq 0 []
    rwa [Nat.zero_add, List.append_nil] at found
  · rintro before recording behind rfl
    rw [List.append_cons] at recordable
    have here := recordable recording (by simp)
    have place : inSequence (before ++ [recording]) = inSequence before ++ recording.bytes := by
      rw [inSequence_append, inSequence_singleton]
    constructor
    · rw [place, inSequence_cons, List.length_append]
      exact reads_tagged here.spelling (inSequence before).length (inSequence behind)
    · exact aligned_inSequence fun other found => recordable other (List.mem_append_left _ found)

/-- A record with a name in some form that leads to a block. Its tag covers the fields up to the
length of the name, and it has no bytes for the use of implementations.
-/
def Recording.named (form : NameForm) (name : String) (block : UInt32) : Recording where
  identifier := {
    tag := ⟨257, 3, 0, 1, 0, 4, 9⟩
    version := 1
    characteristics := 0
    nameLength := .ofNat (form.bytes name).length
    icb := { location := block.toBitVec.setWidth 48 }
    implementationUseLength := 0
    implementationUse := []
    name
  }
  form
  icbUse := .replicate 6 0

theorem Recording.isRecordable_named (form : NameForm) (name : String) (fits : form.Fits name)
    (short : (form.bytes name).length < 256) (block : UInt32)
    : (named form name block).IsRecordable where
  named := rfl
  known := .inr rfl
  covered := by
    have four : (4 : UInt16).toNat = 4 := rfl
    simp only [body, FileIdentifier.body, named, List.length_append, Bytes.length_ofNat, four]
    omega
  icbUse := rfl
  implementationUse := rfl
  fits := fits
  nameLength := (Nat.mod_eq_of_lt short).symm

/-- One record in each form: without a name, with a name in single bytes, and with a name whose only
character is written as two surrogates.
-/
def threeForms : List Recording :=
  [.named .absent "" 4, .named .singleByte "né" 5, .named .doubleByte "𝄞" 6]

/-- Records in all three forms are read in turn. The last of them starts at 84 and ends at 128,
behind all bytes.
-/
theorem Directory.records_inSequence_threeForms
    : (∀ recording ∈ threeForms, recording.IsRecordable)
      ∧ records (inSequence threeForms).length (.ofBytes (inSequence threeForms))
        = (threeForms.map stamped, none)
      ∧ Descriptor.decodeTagged DescriptorKind.fileIdentifier.tagNumber
          ⟨84, inSequence [.named .doubleByte "𝄞" 6]⟩
        = .ok (.fileIdentifier (named .doubleByte "𝄞" 6).stamped) ⟨128, []⟩ := by
  have recordable : ∀ recording ∈ threeForms, recording.IsRecordable := by
    intro recording found
    simp only [threeForms, List.mem_cons, List.not_mem_nil, or_false] at found
    rcases found with rfl | rfl | rfl
    · exact isRecordable_named .absent "" rfl (by decide) 4
    · have plain : Bytes.IsLatin1 "né" := by simp [Bytes.IsLatin1]
      exact isRecordable_named .singleByte "né" plain (by decide) 5
    · exact isRecordable_named .doubleByte "𝄞" trivial (by decide) 6
  obtain ⟨found, each⟩ := records_inSequence recordable
  exact ⟨recordable, found, (each (threeForms.take 2) _ [] rfl).1⟩

end DiscVolume
