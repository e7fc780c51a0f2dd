import DiscVolume.Proofs.Cursor.Steps
import DiscVolume.Proofs.Cursor.Text
import DiscVolume.Proofs.Volume.Sequences
import Mathlib.Data.List.Basic

/-! Which images are recognized, told from the bytes that identify their volume structures: from
sector 16 on each sector carries one of seven identifiers, and the first that carries the terminal
identifier is the last to be looked at.
-/

namespace DiscVolume

open Sequencing

namespace Bytes

/-- The identifiers of the volume structures that are known. -/
def knownIdentifiers : List Bytes :=
  ["BEA01", "BOOT2", "CD001", "CDW02", "NSR02", "NSR03", "TEA01"].map ofText

/-- The five bytes that identify the volume structure of a sector. -/
def identifierAt (image : Bytes) (sector : Nat) : Bytes := image.slice (2048 * sector + 1) 5

/-- From sector 16 up to a last one all sectors are there and carry known identifiers, and only the
last one carries the terminal identifier.
-/
structure IsRecognized (image : Bytes) (last : Nat) : Prop where
  start_le : 16 ≤ last
  complete : ∀ sector, 16 ≤ sector → sector ≤ last → 2048 * (sector + 1) ≤ image.length
  known : ∀ sector, 16 ≤ sector → sector ≤ last → image.identifierAt sector ∈ knownIdentifiers
  terminal_iff : ∀ sector, 16 ≤ sector → sector ≤ last →
    (image.identifierAt sector = ofText "TEA01" ↔ sector = last)

/-- One of the sectors announces contents that are understood. -/
def AnnouncesNsr (image : Bytes) (last : Nat) : Prop :=
  ∃ sector, 16 ≤ sector ∧ sector ≤ last
    ∧ (image.identifierAt sector = ofText "NSR02" ∨ image.identifierAt sector = ofText "NSR03")

end Bytes

/-- Seven identifiers announce a kind of volume structure. -/
theorem StructureKind.ofIdentifier?_latin1 (bytes : Bytes)
    : (∃ kind, ofIdentifier? (Bytes.latin1 bytes) = some kind)
      ↔ bytes ∈ Bytes.knownIdentifiers := by
  constructor
  · rintro ⟨kind, announced⟩
    have named : Bytes.latin1 bytes
        ∈ ["BEA01", "BOOT2", "CD001", "CDW02", "NSR02", "NSR03", "TEA01"] := by
      by_contra unknown
      simp only [List.mem_cons, List.not_mem_nil, or_false, not_or] at unknown
      simp [ofIdentifier?, nsrIdentifiers, terminalIdentifier, unknown] at announced
    have plain : ∀ text ∈ ["BEA01", "BOOT2", "CD001", "CDW02", "NSR02", "NSR03", "TEA01"],
        Bytes.latin1 (Bytes.ofText text) = text := by
      decide
    exact List.mem_map.mpr ⟨_, named, ((Bytes.latin1_eq_iff (plain _ named)).mp rfl).symm⟩
  · intro known
    have seven : ∀ bytes ∈ Bytes.knownIdentifiers,
        (ofIdentifier? (Bytes.latin1 bytes)).isSome = true := by
      decide
    exact Option.isSome_iff_exists.mp (seven bytes known)

/-- A header is read from seven bytes: the type, five bytes of identifier and the version. -/
theorem StructureHeader.decode_eq_ok {data : Bytes} {type version : UInt8}
    (first : data[0]? = some type) (seventh : data[6]? = some version)
    : StructureHeader.decode (Cursor.ofBytes data)
      = .ok ⟨type, Bytes.latin1 (data.slice 1 5), version⟩ ((Cursor.ofBytes data).advance 7) := by
  have length : 6 < data.length := (List.getElem?_eq_some_iff.mp seventh).1
  have enough : 7 ≤ (Cursor.ofBytes data).remaining := length
  have identifier : Decoder.text 5 ((Cursor.ofBytes data).advance 1)
      = .ok (Bytes.latin1 (data.slice 1 5)) ((Cursor.ofBytes data).advance 6) := by
    have five : 5 ≤ ((Cursor.ofBytes data).advance 1).remaining := by
      rw [Cursor.remaining_advance]
      omega
    rw [Decoder.text, bind_of_ok (Decoder.take_eq_ok five), Cursor.advance_advance]
    rfl
  have last : Decoder.uint8 ((Cursor.ofBytes data).advance 6)
      = .ok version ((Cursor.ofBytes data).advance 7) := by
    rw [Decoder.uint8_of_getElem?, Cursor.advance_advance]
    rwa [Cursor.rest_advance, List.getElem?_drop]
  rw [decode, bind_of_ok (Decoder.require_eq_ok enough),
    bind_of_ok (Decoder.uint8_of_getElem? first), bind_of_ok identifier, bind_of_ok last]
  rfl

namespace VolumeStructure

/-- The structure is the one that the first bytes of a sector spell. -/
structure IsAt (entry : VolumeStructure) (image : Bytes) (sector : Nat) : Prop where
  complete : 2048 * (sector + 1) ≤ image.length
  type_eq : image[2048 * sector]? = some entry.header.type
  identifier_eq : entry.identifier = Bytes.latin1 (image.identifierAt sector)
  version_eq : image[2048 * sector + 6]? = some entry.header.version
  kind_eq : StructureKind.ofIdentifier? entry.identifier = some entry.kind

theorem ofHeader_eq_ok {header : StructureHeader} {entry : VolumeStructure}
    : ofHeader header = .ok entry
      ↔ entry.header = header
        ∧ StructureKind.ofIdentifier? header.identifier = some entry.kind := by
  unfold ofHeader
  split
  · next kind known =>
      rw [known]
      constructor
      · intro same
        cases same
        exact ⟨rfl, rfl⟩
      · rintro ⟨rfl, same⟩
        cases same
        rfl
  · next unknown =>
      rw [unknown]
      simp

variable {image : Bytes} {sector : Nat} {entry : VolumeStructure}

/-- A complete sector decodes to what its header announces. -/
theorem sectorValue_eq_ofHeader {type version : UInt8}
    (complete : 2048 * (sector + 1) ≤ image.length) (first : image[2048 * sector]? = some type)
    (seventh : image[2048 * sector + 6]? = some version)
    : image.sectorValue decode sector
      = ofHeader ⟨type, Bytes.latin1 (image.identifierAt sector), version⟩ := by
  have inside : sector * sectorSize + sectorSize ≤ image.length := by
    rw [sectorSize]
    omega
  have place : sector * sectorSize = 2048 * sector := Nat.mul_comm _ _
  have byte (index : Nat) (h : index < sectorSize)
      : (image.slice (sector * sectorSize) sectorSize)[index]? = image[2048 * sector + index]? := by
    rw [Bytes.slice, List.getElem?_take_of_lt h, List.getElem?_drop, place]
  have identifier : (image.slice (sector * sectorSize) sectorSize).slice 1 5
      = image.identifierAt sector := by
    rw [Bytes.slice_slice (by decide), place, Bytes.identifierAt]
  have header := StructureHeader.decode_eq_ok ((byte 0 (by decide)).trans first)
    ((byte 6 (by decide)).trans seventh)
  rw [Bytes.sectorValue, if_pos inside, Decoder.value, decode, bind_of_ok header, identifier]
  cases ofHeader ⟨type, Bytes.latin1 (image.identifierAt sector), version⟩ <;> rfl

/-- A sector decodes to just the volume structure that its first bytes spell. -/
theorem sectorValue_eq_ok_iff
    : image.sectorValue decode sector = .ok entry ↔ entry.IsAt image sector := by
  constructor
  · intro decoded
    have complete : 2048 * (sector + 1) ≤ image.length := by
      have := Bytes.stop_le_of_sectorValue decoded
      unfold sectorSize at this
      omega
    have first := List.getElem?_eq_getElem (l := image) (i := 2048 * sector) (by omega)
    have seventh := List.getElem?_eq_getElem (l := image) (i := 2048 * sector + 6) (by omega)
    rw [sectorValue_eq_ofHeader complete first seventh, ofHeader_eq_ok] at decoded
    obtain ⟨same, known⟩ := decoded
    constructor
    · exact complete
    · rw [first, same]
    · rw [identifier, same]
    · rw [seventh, same]
    · rw [identifier, same, known]
  · intro isAt
    rw [sectorValue_eq_ofHeader isAt.complete isAt.type_eq isAt.version_eq, ofHeader_eq_ok]
    have identifier := isAt.identifier_eq
    rw [VolumeStructure.identifier] at identifier
    refine ⟨by rw [← identifier], ?_⟩
    rw [← isAt.identifier_eq]
    exact isAt.kind_eq

/-- Complete sectors with known identifiers, and no others, spell volume structures. -/
theorem exists_isAt_iff
    : (∃ entry : VolumeStructure, entry.IsAt image sector)
      ↔ 2048 * (sector + 1) ≤ image.length
        ∧ image.identifierAt sector ∈ Bytes.knownIdentifiers := by
  rw [← StructureKind.ofIdentifier?_latin1]
  constructor
  · rintro ⟨entry, isAt⟩
    exact ⟨isAt.complete, entry.kind, isAt.identifier_eq ▸ isAt.kind_eq⟩
  · rintro ⟨complete, kind, known⟩
    have first := List.getElem?_eq_getElem (l := image) (i := 2048 * sector) (by omega)
    have seventh := List.getElem?_eq_getElem (l := image) (i := 2048 * sector + 6) (by omega)
    exact ⟨⟨⟨_, _, _⟩, kind⟩, complete, first, rfl, seventh, known⟩

/-- A structure with the terminal identifier ends the sequence. -/
theorem IsAt.endsSequence_iff (isAt : entry.IsAt image sector)
    : entry.endsSequence = true ↔ image.identifierAt sector = Bytes.ofText "TEA01" := by
  rw [endsSequence, decide_eq_true_iff, isAt.identifier_eq, StructureKind.terminalIdentifier]
  exact Bytes.latin1_eq_iff (by decide)

theorem IsAt.announces_iff (isAt : entry.IsAt image sector)
    : entry.identifier ∈ StructureKind.nsrIdentifiers
      ↔ image.identifierAt sector = Bytes.ofText "NSR02"
        ∨ image.identifierAt sector = Bytes.ofText "NSR03" := by
  rw [isAt.identifier_eq, StructureKind.nsrIdentifiers, List.mem_cons, List.mem_singleton,
    Bytes.latin1_eq_iff (by decide), Bytes.latin1_eq_iff (by decide)]

end VolumeStructure

namespace Bytes

variable {image : Bytes} {values : List VolumeStructure} {last : Nat}

/-- The volume structures from sector 16 on, up to the one that ends them. -/
abbrev IsRecognition (image : Bytes) (values : List VolumeStructure) : Prop :=
  image.IsSequence VolumeStructure.decode VolumeStructure.endsSequence recognitionSector values

theorem IsSequence.isAt (sequence : image.IsRecognition values) {place : Nat}
    (h : place < values.length)
    : values[place].IsAt image (16 + place) :=
  VolumeStructure.sectorValue_eq_ok_iff.mp (sequence.decoded place h)

/-- Where there is a sequence of structures, the image is recognized up to its last sector. -/
theorem IsSequence.isRecognized (sequence : image.IsRecognition values)
    : image.IsRecognized (15 + values.length) := by
  have some_value := List.length_pos_iff.mpr sequence.nonempty
  -- Each sector in range is the one of a value.
  have place_of (sector : Nat) (low : 16 ≤ sector) (high : sector ≤ 15 + values.length)
      : ∃ place, ∃ h : place < values.length, values[place].IsAt image sector
        ∧ (values[place].endsSequence = true ↔ place + 1 = values.length)
        ∧ 16 + place = sector := by
    have h : sector - 16 < values.length := by omega
    have isAt := sequence.isAt h
    have same : 16 + (sector - 16) = sector := by omega
    rw [same] at isAt
    exact ⟨sector - 16, h, isAt, sequence.isLast_iff _ h, same⟩
  constructor
  · omega
  · intro sector low high
    obtain ⟨place, h, isAt, -⟩ := place_of sector low high
    exact isAt.complete
  · intro sector low high
    obtain ⟨place, h, isAt, -⟩ := place_of sector low high
    exact (VolumeStructure.exists_isAt_iff.mp ⟨_, isAt⟩).2
  · intro sector low high
    obtain ⟨place, h, isAt, ends, same⟩ := place_of sector low high
    rw [← isAt.endsSequence_iff, ends]
    omega

/-- Sectors that are complete and have known identifiers, only the last of them the terminal one,
are a sequence, by induction on the sectors before the last.
-/
theorem exists_sequence (image : Bytes) (before sector : Nat)
    (known : ∀ other, sector ≤ other → other ≤ sector + before →
      2048 * (other + 1) ≤ image.length ∧ image.identifierAt other ∈ knownIdentifiers)
    (terminal : ∀ other, sector ≤ other → other ≤ sector + before →
      (image.identifierAt other = ofText "TEA01" ↔ other = sector + before))
    : ∃ values, image.IsSequence VolumeStructure.decode VolumeStructure.endsSequence sector values
        ∧ values.length = before + 1 := by
  induction before generalizing sector with
  | zero =>
      obtain ⟨entry, isAt⟩ :=
        VolumeStructure.exists_isAt_iff.mpr (known sector (Nat.le_refl _) (by omega))
      have ends : entry.endsSequence = true :=
        isAt.endsSequence_iff.mpr ((terminal sector (Nat.le_refl _) (by omega)).mpr rfl)
      exact ⟨[entry], .single (VolumeStructure.sectorValue_eq_ok_iff.mpr isAt) ends, rfl⟩
  | succ before ih =>
      obtain ⟨entry, isAt⟩ :=
        VolumeStructure.exists_isAt_iff.mpr (known sector (Nat.le_refl _) (by omega))
      obtain ⟨others, sequence, length⟩ := ih (sector + 1)
        (fun other low high => known other (by omega) (by omega))
        (fun other low high => (terminal other (by omega) (by omega)).trans (by omega))
      have goesOn : entry.endsSequence = false := by
        rw [← Bool.not_eq_true, isAt.endsSequence_iff, terminal sector (Nat.le_refl _) (by omega)]
        omega
      refine ⟨entry :: others, ?_, by rw [List.length_cons, length]⟩
      exact IsSequence.cons_iff.mpr
        ⟨VolumeStructure.sectorValue_eq_ok_iff.mpr isAt, .inr ⟨goesOn, sequence⟩⟩

/-- A recognized image has the sequence of structures. -/
theorem IsRecognized.exists_recognition (recognized : image.IsRecognized last)
    : ∃ values, image.IsRecognition values ∧ 15 + values.length = last := by
  have start_le := recognized.start_le
  obtain ⟨values, sequence, length⟩ := exists_sequence image (last - 16) 16
    (fun other low high => ⟨recognized.complete other low (by omega),
      recognized.known other low (by omega)⟩)
    (fun other low high => (recognized.terminal_iff other low (by omega)).trans (by omega))
  exact ⟨values, sequence, by omega⟩

/-- The structures of a sequence announce what its sectors do. -/
theorem IsSequence.hasAnyIdentifier_iff (sequence : image.IsRecognition values)
    : Recognition.hasAnyIdentifier StructureKind.nsrIdentifiers values = true
      ↔ image.AnnouncesNsr (15 + values.length) := by
  rw [Recognition.hasAnyIdentifier, List.any_eq_true]
  constructor
  · rintro ⟨entry, member, announces⟩
    obtain ⟨place, h, rfl⟩ := List.getElem_of_mem member
    exact ⟨16 + place, by omega, by omega,
      (sequence.isAt h).announces_iff.mp (of_decide_eq_true announces)⟩
  · rintro ⟨sector, low, high, announces⟩
    have h : sector - 16 < values.length := by omega
    have isAt := sequence.isAt h
    have same : 16 + (sector - 16) = sector := by omega
    rw [same] at isAt
    exact ⟨values[sector - 16], List.getElem_mem h,
      decide_eq_true (isAt.announces_iff.mpr announces)⟩

end Bytes

end DiscVolume
