import DiscVolume.Proofs.Volume.Blocks
import DiscVolume.Proofs.Volume.Recognized
import DiscVolume.Reader

/-! Which images are opened, and what is found in them. An image is accepted if it is recognized,
has an anchor, has a main sequence of descriptors with the three that a volume needs, and has a
file set where its first partition starts. Nothing else is asked of it.
-/

namespace DiscVolume

open Sequencing

namespace Descriptor

/-- The descriptor is in a sequence, and none of the same kind is in front of it. -/
def IsFirstIn (descriptor : Descriptor) (sequence : List Descriptor) : Prop :=
  ∃ before behind, sequence = before ++ descriptor :: behind
    ∧ ∀ other ∈ before, other.kind ≠ descriptor.kind

/-- A function picks out the descriptors of a kind. -/
structure Selects (kind : DescriptorKind) (select : Descriptor → Option α)
    (make : α → Descriptor)
    : Prop where
  some_iff : ∀ descriptor value, select descriptor = some value ↔ descriptor = make value
  none_iff : ∀ descriptor, select descriptor = none ↔ descriptor.kind ≠ kind
  kind_make : ∀ value, (make value).kind = kind

theorem selects_primaryVolume : Selects .primaryVolume primaryVolume? primaryVolume where
  some_iff descriptor value := by cases descriptor <;> simp [primaryVolume?]
  none_iff descriptor := by cases descriptor <;> simp [primaryVolume?, kind]
  kind_make _ := rfl

theorem selects_anchorPointer : Selects .anchorPointer anchorPointer? anchorPointer where
  some_iff descriptor value := by cases descriptor <;> simp [anchorPointer?]
  none_iff descriptor := by cases descriptor <;> simp [anchorPointer?, kind]
  kind_make _ := rfl

theorem selects_partition : Selects .partition partition? partition where
  some_iff descriptor value := by cases descriptor <;> simp [partition?]
  none_iff descriptor := by cases descriptor <;> simp [partition?, kind]
  kind_make _ := rfl

theorem selects_logicalVolume : Selects .logicalVolume logicalVolume? logicalVolume where
  some_iff descriptor value := by cases descriptor <;> simp [logicalVolume?]
  none_iff descriptor := by cases descriptor <;> simp [logicalVolume?, kind]
  kind_make _ := rfl

theorem selects_fileSet : Selects .fileSet fileSet? fileSet where
  some_iff descriptor value := by cases descriptor <;> simp [fileSet?]
  none_iff descriptor := by cases descriptor <;> simp [fileSet?, kind]
  kind_make _ := rfl

namespace Selects

variable {kind : DescriptorKind} {select : Descriptor → Option α} {make : α → Descriptor}
variable {sequence : List Descriptor} {value : α}

/-- The first descriptor of a kind is the one that is found. -/
theorem first_eq_ok_iff (selects : Selects kind select make)
    : first kind select sequence = .ok value ↔ (make value).IsFirstIn sequence := by
  have found : first kind select sequence = .ok value ↔ sequence.findSome? select = some value := by
    unfold first
    cases sequence.findSome? select <;> simp
  rw [found, List.findSome?_eq_some_iff]
  constructor
  · rintro ⟨before, descriptor, behind, rfl, selected, none⟩
    obtain rfl := (selects.some_iff _ _).mp selected
    refine ⟨before, behind, rfl, fun other member => ?_⟩
    rw [selects.kind_make]
    exact (selects.none_iff other).mp (none other member)
  · rintro ⟨before, behind, rfl, differs⟩
    refine ⟨before, _, behind, rfl, (selects.some_iff _ _).mpr rfl, fun other member => ?_⟩
    rw [selects.none_iff, ← selects.kind_make value]
    exact differs other member

/-- There is a first descriptor of a kind if there is any. -/
theorem exists_first (selects : Selects kind select make) (member : make value ∈ sequence)
    : ∃ value, (make value).IsFirstIn sequence := by
  cases found : sequence.findSome? select with
  | some value => exact ⟨value, selects.first_eq_ok_iff.mp (by simp [first, found])⟩
  | none =>
      have missed := List.findSome?_eq_none_iff.mp found _ member
      rw [(selects.some_iff _ _).mpr rfl] at missed
      cases missed

end Selects

theorem IsFirstIn.mem {descriptor : Descriptor} {sequence : List Descriptor}
    (isFirst : descriptor.IsFirstIn sequence)
    : descriptor ∈ sequence := by
  obtain ⟨before, behind, rfl, -⟩ := isFirst
  simp

end Descriptor

/-- Descriptors from a sector on, up to the terminating one. -/
abbrev Bytes.IsVolumeSequence (image : Bytes) (start : Nat) (descriptors : List Descriptor)
    : Prop :=
  image.IsSequence Descriptor.decode (fun descriptor => descriptor.kind = .terminating) start
    descriptors

/-- All that an image needs to be opened. -/
def Bytes.IsAcceptable (image : Bytes) : Prop :=
  (∃ last, image.IsRecognized last ∧ image.AnnouncesNsr last)
    ∧ ∃ anchor descriptors primary partition logical fileSet,
        image.sectorValue Descriptor.decode 256 = .ok (.anchorPointer anchor)
        ∧ image.IsVolumeSequence anchor.mainSequence.location.toNat descriptors
        ∧ .primaryVolume primary ∈ descriptors ∧ .logicalVolume logical ∈ descriptors
        ∧ (Descriptor.partition partition).IsFirstIn descriptors
        ∧ image.sectorValue Descriptor.decode partition.startLocation.toNat = .ok (.fileSet fileSet)

namespace Volume

/-- A volume holds what there is on an image: the volume structures and the descriptors of all
sectors up to the last, in order, and the first of each kind that is needed.
-/
structure Describes (volume : Volume σ) (image : Bytes) : Prop where
  isRecognized : image.IsRecognized (15 + volume.recognition.length)
  announces : image.AnnouncesNsr (15 + volume.recognition.length)
  recognition : ∀ place (h : place < volume.recognition.length),
    volume.recognition[place].IsAt image (16 + place)
  anchor : image.sectorValue Descriptor.decode 256 = .ok (.anchorPointer volume.anchor)
  mainSequence :
    image.IsVolumeSequence volume.anchor.mainSequence.location.toNat volume.mainSequence
  primary : (Descriptor.primaryVolume volume.primary).IsFirstIn volume.mainSequence
  partition : (Descriptor.partition volume.partition).IsFirstIn volume.mainSequence
  logical : (Descriptor.logicalVolume volume.logical).IsFirstIn volume.mainSequence
  fileSet : image.sectorValue Descriptor.decode volume.partition.startLocation.toNat
    = .ok (.fileSet volume.fileSet)

variable {source : Source σ} {image : Bytes} {ready : σ → Prop} {medium after : σ}
variable {volume : Volume σ}

theorem Describes.isAcceptable (describes : volume.Describes image) : image.IsAcceptable :=
  ⟨⟨_, describes.isRecognized, describes.announces⟩, _, _, _, _, _, _, describes.anchor,
    describes.mainSequence, describes.primary.mem, describes.logical.mem, describes.partition,
    describes.fileSet⟩

/-- Sectors with numbers of four bytes can be asked for. -/
theorem reaches_toNat (image : Bytes) (sector : UInt32) : Source.Reaches image sector.toNat :=
  .inr (sector_offset_lt sector)

/-- What has been opened describes the image. -/
theorem describes_of_ofSource (serves : source.ServesToEnd image ready) (isReady : ready medium)
    (opened : ofSource source medium = .ok volume after)
    : volume.Describes image := by
  obtain ⟨recognition, recognized, found, rest⟩ := bind_ok_iff.mp opened
  obtain ⟨sequence, isReady⟩ :=
    Source.isSequence_of_sequenceFrom serves (.inr (by decide)) isReady found
  obtain ⟨_, _, told, rest⟩ := bind_ok_iff.mp rest
  cases told
  replace isReady := serves.ready_note (.recognitionRead recognition.length) _ isReady
  by_cases announces : Recognition.hasAnyIdentifier StructureKind.nsrIdentifiers recognition = true
  · rw [if_neg (by simp [announces])] at rest
    obtain ⟨anchor, _, found, rest⟩ := bind_ok_iff.mp rest
    obtain ⟨_, anchored, selected, isReady⟩ :=
      Source.sectorValue_of_descriptorAt serves (.inr (by decide)) isReady found
    obtain rfl := (Descriptor.selects_anchorPointer.some_iff _ _).mp selected
    obtain ⟨mainSequence, _, found, rest⟩ := bind_ok_iff.mp rest
    obtain ⟨main, isReady⟩ :=
      Source.isSequence_of_sequenceFrom serves (reaches_toNat ..) isReady found
    obtain ⟨_, _, told, rest⟩ := bind_ok_iff.mp rest
    cases told
    replace isReady := serves.ready_note
      (.sequenceRead mainSequence.length anchor.mainSequence.location.toNat) _ isReady
    obtain ⟨primary, _, settled, rest⟩ := bind_ok_iff.mp rest
    obtain ⟨firstPrimary, rfl⟩ := Access.settle_eq_ok.mp settled
    obtain ⟨partition, _, settled, rest⟩ := bind_ok_iff.mp rest
    obtain ⟨firstPartition, rfl⟩ := Access.settle_eq_ok.mp settled
    obtain ⟨logical, _, settled, rest⟩ := bind_ok_iff.mp rest
    obtain ⟨firstLogical, rfl⟩ := Access.settle_eq_ok.mp settled
    obtain ⟨fileSet, _, found, rest⟩ := bind_ok_iff.mp rest
    obtain ⟨_, fileSetAt, selected, -⟩ :=
      Source.sectorValue_of_descriptorAt serves (reaches_toNat ..) isReady found
    obtain rfl := (Descriptor.selects_fileSet.some_iff _ _).mp selected
    cases rest
    exact {
      isRecognized := sequence.isRecognized
      announces := sequence.hasAnyIdentifier_iff.mp announces
      recognition := fun place h => sequence.isAt h
      anchor := anchored
      mainSequence := main
      primary := Descriptor.selects_primaryVolume.first_eq_ok_iff.mp firstPrimary
      partition := Descriptor.selects_partition.first_eq_ok_iff.mp firstPartition
      logical := Descriptor.selects_logicalVolume.first_eq_ok_iff.mp firstLogical
      fileSet := fileSetAt
    }
  · rw [if_pos (by simp [announces])] at rest
    cases rest

/-- An acceptable image is opened. -/
theorem ofSource_of_isAcceptable (serves : source.ServesToEnd image ready)
    (isReady : ready medium) (acceptable : image.IsAcceptable)
    : ∃ volume after, ofSource source medium = .ok volume after := by
  obtain ⟨⟨last, recognized, announces⟩, anchor, descriptors, primary, partition, logical, fileSet,
    anchored, main, hasPrimary, hasLogical, isFirst, fileSetAt⟩ := acceptable
  obtain ⟨recognition, sequence, rfl⟩ := recognized.exists_recognition
  obtain ⟨primary, firstPrimary⟩ := Descriptor.selects_primaryVolume.exists_first hasPrimary
  obtain ⟨logical, firstLogical⟩ := Descriptor.selects_logicalVolume.exists_first hasLogical
  replace firstPrimary := Descriptor.selects_primaryVolume.first_eq_ok_iff.mpr firstPrimary
  replace firstLogical := Descriptor.selects_logicalVolume.first_eq_ok_iff.mpr firstLogical
  have firstPartition := Descriptor.selects_partition.first_eq_ok_iff.mpr isFirst
  obtain ⟨_, isReady, structures⟩ := Source.sequenceFrom_of_isSequence serves isReady sequence
  replace isReady := serves.ready_note (.recognitionRead recognition.length) _ isReady
  obtain ⟨_, isReady, foundAnchor⟩ := Source.descriptorAt_eq_ok .anchorPointer serves isReady
    anchored ((Descriptor.selects_anchorPointer.some_iff _ _).mpr rfl)
  obtain ⟨_, isReady, foundMain⟩ := Source.sequenceFrom_of_isSequence serves isReady main
  replace isReady := serves.ready_note (.sequenceRead descriptors.length
    anchor.mainSequence.location.toNat) _ isReady
  obtain ⟨after, -, foundFileSet⟩ := Source.descriptorAt_eq_ok .fileSet serves isReady
    fileSetAt ((Descriptor.selects_fileSet.some_iff _ _).mpr rfl)
  refine
    ⟨⟨source, recognition, anchor, descriptors, primary, partition, logical, fileSet⟩, after, ?_⟩
  rw [ofSource, bind_of_ok structures]
  refine (bind_of_ok rfl).trans ?_
  rw [if_neg (by simp [sequence.hasAnyIdentifier_iff.mpr announces])]
  refine (bind_of_ok foundAnchor).trans ((bind_of_ok foundMain).trans ?_)
  refine (bind_of_ok rfl).trans ?_
  rw [firstPrimary, firstPartition, firstLogical]
  refine (bind_of_ok rfl).trans ((bind_of_ok rfl).trans ((bind_of_ok rfl).trans ?_))
  rw [bind_of_ok foundFileSet]
  rfl

/-- An image that is recognized but announces nothing that is understood is turned down. -/
theorem ofSource_unsupported {last : Nat} (serves : source.ServesToEnd image ready)
    (isReady : ready medium) (recognized : image.IsRecognized last)
    (silent : ¬ image.AnnouncesNsr last)
    : ∃ after, ofSource source medium = .error (.malformed .unsupportedFormat) after := by
  obtain ⟨recognition, sequence, rfl⟩ := recognized.exists_recognition
  obtain ⟨after, -, structures⟩ := Source.sequenceFrom_of_isSequence serves isReady sequence
  refine ⟨source.note (.recognitionRead recognition.length) after, ?_⟩
  rw [ofSource, bind_of_ok structures]
  refine (bind_of_ok rfl).trans ?_
  have absent : Recognition.hasAnyIdentifier StructureKind.nsrIdentifiers recognition = false := by
    rw [← Bool.not_eq_true, sequence.hasAnyIdentifier_iff]
    exact silent
  rw [if_pos (by simp [absent])]
  rfl

end Volume

namespace Reader

variable {supply : Supply σ} {source : Source σ} {image : Bytes} {ready : σ → Prop} {medium : σ}

/-- A new reader holds the volume that it opens, or stays new. -/
theorem openImage_new (chosen : supply.toSource = .ok source) (medium : σ)
    : openImage supply ({}, medium)
      = match Access.blaming .opening (Volume.ofSource source) (source.note .opening medium) with
        | .ok volume after => .ok () ({ volume := some volume }, after)
        | .error failure after => .error failure ({}, after) := by
  have supplied : Volume.ofSupply supply medium
      = Access.blaming .opening (Volume.ofSource source) (source.note .opening medium) := by
    rw [Volume.ofSupply, chosen]
    exact (bind_of_ok rfl).trans (bind_of_ok rfl)
  have fresh : openImage supply ({}, medium)
      = (onMedium (Volume.ofSupply supply) >>= fun volume => hold (some volume)) ({}, medium) := rfl
  rw [fresh, ← supplied]
  cases opened : Volume.ofSupply supply medium with
  | ok volume after =>
      have step : onMedium (Volume.ofSupply supply) ({}, medium) = .ok volume ({}, after) := by
        simp only [onMedium, opened]
      rw [bind_of_ok step]
      rfl
  | error failure after =>
      refine bind_of_error ?_
      simp only [onMedium, opened]

/-- A new reader opens just the images that are acceptable, and holds what they describe. Images
that are recognized but announce nothing that is understood are turned down as unsupported.
-/
theorem openImage_iff_acceptable (chosen : supply.toSource = .ok source)
    (serves : source.ServesToEnd image ready) (isReady : ready medium)
    : ((∃ after, openImage supply ({}, medium) = .ok () after) ↔ image.IsAcceptable)
      ∧ (∀ after, openImage supply ({}, medium) = .ok () after
        → ∃ volume, after.1.volume = some volume ∧ volume.Describes image)
      ∧ ∀ last, image.IsRecognized last → ¬ image.AnnouncesNsr last
        → ∃ failure after, openImage supply ({}, medium) = .error failure ({}, after)
          ∧ failure = .malformed .unsupportedFormat
          ∧ failure.message = "unsupported image format" := by
  have isReady := serves.ready_note .opening medium isReady
  have described : ∀ after, openImage supply ({}, medium) = .ok () after
      → ∃ volume, after.1.volume = some volume ∧ volume.Describes image := by
    intro after opened
    rw [openImage_new chosen] at opened
    split at opened
    · next volume later found =>
        cases opened
        exact ⟨volume, rfl,
          Volume.describes_of_ofSource serves isReady (Access.blaming_eq_ok.mp found)⟩
    · cases opened
  refine ⟨⟨?_, ?_⟩, described, ?_⟩
  · rintro ⟨after, opened⟩
    obtain ⟨volume, -, describes⟩ := described after opened
    exact describes.isAcceptable
  · intro acceptable
    obtain ⟨volume, after, found⟩ := Volume.ofSource_of_isAcceptable serves isReady acceptable
    refine ⟨({ volume := some volume }, after), ?_⟩
    rw [openImage_new chosen, Access.blaming_eq_ok.mpr found]
  · intro last recognized silent
    obtain ⟨after, failed⟩ := Volume.ofSource_unsupported serves isReady recognized silent
    refine ⟨_, after, ?_, rfl, rfl⟩
    rw [openImage_new chosen, Access.blaming_of_error failed (by simp)]

end Reader

/-! Images of 257 sectors, most of them blank. The main sequence starts at sector 1, and the
partition at sector 0. A bare image has nothing but what it takes to be opened.
-/

/-- A sector that starts with what is listed for it, and is blank behind that. -/
def sectorWith (heads : List (Nat × Bytes)) (sector : Nat) : Bytes :=
  ((heads.lookup sector).getD [] ++ List.replicate sectorSize 0).take sectorSize

def imageWith (heads : List (Nat × Bytes)) : Bytes := (List.range 257).flatMap (sectorWith heads)

/-- What the sectors that are not blank start with. -/
def bareHeads : List (Nat × Bytes) :=
  [(0, [0, 1, 2, 0, 3]), (1, [1, 0, 2, 0, 3]), (2, [5, 0, 2, 0, 7]),
    (3, [6, 0, 2, 0, 8] ++ List.replicate 207 0 ++ [0, 8]), (4, [8, 0, 2, 0, 10]),
    (16, 0 :: Bytes.ofText "BEA01"), (17, 0 :: Bytes.ofText "NSR02"),
    (18, 0 :: Bytes.ofText "TEA01"), (256, [2, 0, 2, 0, 4] ++ List.replicate 15 0 ++ [1])]

def bareSector (sector : Nat) : Bytes :=
  ((bareHeads.lookup sector).getD [] ++ List.replicate sectorSize 0).take sectorSize

def bareImage : Bytes := (List.range 257).flatMap bareSector

section

variable {heads : List (Nat × Bytes)} {sector : Nat}

theorem length_sectorWith (heads : List (Nat × Bytes)) (sector : Nat)
    : (sectorWith heads sector).length = sectorSize := by
  rw [sectorWith, List.length_take, List.length_append, List.length_replicate]
  omega

/-- A sector of a range of sectors is where its number says. -/
theorem slice_sectorsWith (heads : List (Nat × Bytes)) {start count : Nat} (low : start ≤ sector)
    (high : sector < start + count)
    : Bytes.slice ((List.range' start count).flatMap (sectorWith heads))
        ((sector - start) * sectorSize) sectorSize
      = sectorWith heads sector := by
  induction count generalizing start with
  | zero => omega
  | succ count ih =>
      rw [List.range'_succ, List.flatMap_cons]
      rcases Nat.eq_or_lt_of_le low with rfl | later
      · rw [Nat.sub_self, Nat.zero_mul, Bytes.slice, List.drop_zero]
        exact List.take_left' (length_sectorWith heads start)
      · have place : (sector - start) * sectorSize - (sectorWith heads start).length
            = (sector - (start + 1)) * sectorSize := by
          rw [length_sectorWith, ← Nat.sub_one_mul, Nat.sub_sub]
        have behind : (sectorWith heads start).length ≤ (sector - start) * sectorSize := by
          rw [length_sectorWith]
          exact Nat.le_mul_of_pos_left _ (by omega)
        rw [Bytes.slice_append_of_le behind, place]
        exact ih later (by omega)

theorem length_sectorsWith (heads : List (Nat × Bytes)) (count : Nat)
    : ((List.range count).flatMap (sectorWith heads)).length = count * sectorSize := by
  simp [List.length_flatMap, length_sectorWith]

theorem slice_imageWith (h : sector < 257)
    : (imageWith heads).slice (sector * sectorSize) sectorSize = sectorWith heads sector := by
  have high : sector < 0 + 257 := by omega
  have found := slice_sectorsWith heads (Nat.zero_le sector) high
  rwa [Nat.sub_zero, ← List.range_eq_range'] at found

/-- A sector of the image decodes to what it starts with. -/
theorem sectorValue_imageWith (h : sector < 257) (decoder : Decoder α)
    : (imageWith heads).sectorValue decoder sector
      = decoder.value (Cursor.ofBytes (sectorWith heads sector)) := by
  have inside : sector * sectorSize + sectorSize ≤ (imageWith heads).length := by
    rw [imageWith, length_sectorsWith, sectorSize]
    omega
  rw [Bytes.sectorValue, if_pos inside, slice_imageWith h]

theorem identifierAt_imageWith (h : sector < 257)
    : (imageWith heads).identifierAt sector = (sectorWith heads sector).slice 1 5 := by
  rw [← slice_imageWith h, Bytes.slice_slice (by decide), Bytes.identifierAt, sectorSize,
    Nat.mul_comm]

/-- The volume structures and the main sequence are those of the bare image. -/
def IsLikeBare (heads : List (Nat × Bytes)) : Prop :=
  ∀ sector ∈ [1, 2, 3, 4, 16, 17, 18, 256], heads.lookup sector = bareHeads.lookup sector

instance : Decidable (IsLikeBare heads) := List.decidableBAll _ _

theorem IsLikeBare.sectorWith_eq (like : IsLikeBare heads)
    (among : sector ∈ [1, 2, 3, 4, 16, 17, 18, 256])
    : sectorWith heads sector = bareSector sector := by
  rw [sectorWith, like sector among, bareSector]

theorem IsLikeBare.isRecognized (like : IsLikeBare heads) : (imageWith heads).IsRecognized 18 := by
  have identifiers : (imageWith heads).identifierAt 16 = Bytes.ofText "BEA01"
      ∧ (imageWith heads).identifierAt 17 = Bytes.ofText "NSR02"
      ∧ (imageWith heads).identifierAt 18 = Bytes.ofText "TEA01" := by
    refine ⟨?_, ?_, ?_⟩ <;>
      (rw [identifierAt_imageWith (by decide), like.sectorWith_eq (by decide)]; decide)
  obtain ⟨first, second, third⟩ := identifiers
  have three (sector : Nat) (low : 16 ≤ sector) (high : sector ≤ 18)
      : sector = 16 ∨ sector = 17 ∨ sector = 18 := by
    omega
  constructor
  · decide
  · intro sector low high
    rw [imageWith, length_sectorsWith, sectorSize]
    omega
  · intro sector low high
    rcases three sector low high with rfl | rfl | rfl
    · rw [first]; decide
    · rw [second]; decide
    · rw [third]; decide
  · intro sector low high
    rcases three sector low high with rfl | rfl | rfl
    · rw [first]; decide
    · rw [second]; decide
    · rw [third]; decide

/-- A descriptor is found in a sector if decoding finds what it looks like. -/
theorem imageWith_holds (heads : List (Nat × Bytes)) (sector : Nat) (look : Descriptor → Option α) {seen : α}
    (h : sector < 257)
    (found : (Decoder.value Descriptor.decode (Cursor.ofBytes (sectorWith heads sector))).map look
      = .ok (some seen))
    : ∃ descriptor, (imageWith heads).sectorValue Descriptor.decode sector = .ok descriptor
        ∧ look descriptor = some seen := by
  rw [sectorValue_imageWith h]
  cases decoded : Decoder.value Descriptor.decode (Cursor.ofBytes (sectorWith heads sector)) with
  | ok descriptor =>
      rw [decoded] at found
      exact ⟨descriptor, rfl, by simpa [Except.map] using found⟩
  | error failure =>
      rw [decoded] at found
      cases found

set_option maxRecDepth 20000 in
/-- The anchor and the main sequence of an image that is like the bare one. -/
theorem IsLikeBare.exists_descriptors (like : IsLikeBare heads)
    : ∃ anchor primary partition logical last,
        (imageWith heads).sectorValue Descriptor.decode 256 = .ok (.anchorPointer anchor)
        ∧ anchor.mainSequence.location = 1
        ∧ (imageWith heads).IsVolumeSequence 1
            [.primaryVolume primary, .partition partition, .logicalVolume logical, last]
        ∧ partition.startLocation = 0 := by
  -- Each descriptor is decoded as far as the bytes that matter here.
  obtain ⟨_, anchored, look⟩ := imageWith_holds heads 256
    (fun descriptor => descriptor.anchorPointer?.map (·.mainSequence.location)) (by decide)
    (by rw [like.sectorWith_eq (by decide)]; rfl)
  obtain ⟨anchor, selected, start⟩ := Option.map_eq_some_iff.mp look
  obtain rfl := (Descriptor.selects_anchorPointer.some_iff _ _).mp selected
  obtain ⟨_, first, look⟩ := imageWith_holds heads 1
    (fun descriptor => descriptor.primaryVolume?.map (·.tag.identifier)) (by decide)
    (by rw [like.sectorWith_eq (by decide)]; rfl)
  obtain ⟨primary, selected, -⟩ := Option.map_eq_some_iff.mp look
  obtain rfl := (Descriptor.selects_primaryVolume.some_iff _ _).mp selected
  obtain ⟨_, second, look⟩ := imageWith_holds heads 2
    (fun descriptor => descriptor.partition?.map (·.startLocation)) (by decide)
    (by rw [like.sectorWith_eq (by decide)]; rfl)
  obtain ⟨partition, selected, partitionStart⟩ := Option.map_eq_some_iff.mp look
  obtain rfl := (Descriptor.selects_partition.some_iff _ _).mp selected
  obtain ⟨_, third, look⟩ := imageWith_holds heads 3
    (fun descriptor => descriptor.logicalVolume?.map (·.blockSize)) (by decide)
    (by rw [like.sectorWith_eq (by decide)]; rfl)
  obtain ⟨logical, selected, -⟩ := Option.map_eq_some_iff.mp look
  obtain rfl := (Descriptor.selects_logicalVolume.some_iff _ _).mp selected
  obtain ⟨fourth, decodedFourth, look⟩ := imageWith_holds heads 4
    (fun descriptor => some descriptor.kind) (by decide)
    (by rw [like.sectorWith_eq (by decide)]; rfl)
  have isTerminating : fourth.kind = .terminating := Option.some.inj look
  refine ⟨anchor, primary, partition, logical, fourth, anchored, start, ?_, partitionStart⟩
  have last : (imageWith heads).IsVolumeSequence 4 [fourth] :=
    .single decodedFourth (by simp [isTerminating])
  have two := Bytes.IsSequence.cons_iff.mpr ⟨third, .inr ⟨rfl, last⟩⟩
  have three := Bytes.IsSequence.cons_iff.mpr ⟨second, .inr ⟨rfl, two⟩⟩
  exact Bytes.IsSequence.cons_iff.mpr ⟨first, .inr ⟨rfl, three⟩⟩

set_option maxRecDepth 20000 in
/-- Such an image is acceptable if it has a file set in sector 0, where its partition starts. -/
theorem IsLikeBare.isAcceptable {fileSet : FileSet} (like : IsLikeBare heads)
    (fileSetAt : (imageWith heads).sectorValue Descriptor.decode 0 = .ok (.fileSet fileSet))
    : (imageWith heads).IsAcceptable := by
  have announces : (imageWith heads).AnnouncesNsr 18 := by
    refine ⟨17, by decide, by decide, .inl ?_⟩
    rw [identifierAt_imageWith (by decide), like.sectorWith_eq (by decide)]
    decide
  obtain ⟨anchor, primary, partition, logical, last, anchored, start, sequence, partitionStart⟩ :=
    like.exists_descriptors
  have isFirst : (Descriptor.partition partition).IsFirstIn
      [.primaryVolume primary, .partition partition, .logicalVolume logical, last] :=
    ⟨[.primaryVolume primary], _, rfl, by simp [Descriptor.kind]⟩
  refine ⟨⟨18, like.isRecognized, announces⟩, anchor, _, primary, partition, logical, fileSet,
    anchored, ?_, by simp, by simp, isFirst, ?_⟩
  · rw [start]
    exact sequence
  · rw [partitionStart]
    exact fileSetAt

/-- What is opened on such an image has the partition and the file set that are there. -/
theorem IsLikeBare.of_describes {volume : Volume σ} (like : IsLikeBare heads)
    (describes : volume.Describes (imageWith heads))
    : volume.partition.startLocation = 0
      ∧ (imageWith heads).sectorValue Descriptor.decode 0 = .ok (.fileSet volume.fileSet) := by
  obtain ⟨anchor, primary, partition, logical, last, anchored, start, sequence, partitionStart⟩ :=
    like.exists_descriptors
  have sameAnchor : volume.anchor = anchor := by
    have both := describes.anchor.symm.trans anchored
    simpa using both
  have main := describes.mainSequence
  rw [sameAnchor, start] at main
  have sameMain := (Bytes.Search.ok_iff.mpr main).unique (Bytes.Search.ok_iff.mpr sequence)
  have isFirst : (Descriptor.partition partition).IsFirstIn volume.mainSequence := by
    rw [Except.ok.inj sameMain]
    exact ⟨[.primaryVolume primary], _, rfl, by simp [Descriptor.kind]⟩
  have found := Descriptor.selects_partition.first_eq_ok_iff.mpr isFirst
  rw [Descriptor.selects_partition.first_eq_ok_iff.mpr describes.partition] at found
  have samePartition : volume.partition = partition := Except.ok.inj found
  have fileSetAt := describes.fileSet
  rw [samePartition, partitionStart] at fileSetAt
  exact ⟨samePartition ▸ partitionStart, fileSetAt⟩

end

set_option maxRecDepth 20000 in
theorem bareImage_isAcceptable : bareImage.IsAcceptable := by
  have like : IsLikeBare bareHeads := fun _ _ => rfl
  obtain ⟨_, zeroth, look⟩ := imageWith_holds bareHeads 0
    (fun descriptor => descriptor.fileSet?.map (·.tag.identifier)) (by decide) rfl
  obtain ⟨fileSet, selected, -⟩ := Option.map_eq_some_iff.mp look
  obtain rfl := (Descriptor.selects_fileSet.some_iff _ _).mp selected
  exact like.isAcceptable zeroth

def bareSource : Source Unit := .ofContents ⟨bareImage.toArray⟩

theorem Reader.openImage_iff_acceptable_bare
    : bareImage.IsAcceptable
      ∧ ∃ after, openImage (.direct bareSource) ({}, ()) = .ok () after
        ∧ ∃ volume, after.1.volume = some volume ∧ volume.Describes bareImage := by
  have serves : bareSource.ServesToEnd bareImage (fun _ => True) :=
    Source.ServesToEnd.ofContents ⟨bareImage.toArray⟩
  have chosen : (Supply.direct bareSource).toSource = .ok bareSource := rfl
  obtain ⟨accepted, described, -⟩ := openImage_iff_acceptable chosen serves trivial
  obtain ⟨after, opened⟩ := accepted.mpr bareImage_isAcceptable
  exact ⟨bareImage_isAcceptable, after, opened, described after opened⟩

end DiscVolume
