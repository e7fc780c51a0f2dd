import DiscVolume.Proofs.Directory.Traversal
import DiscVolume.Proofs.Extraction.Copying
import DiscVolume.Proofs.Volume.Acceptance

/-! What is found on a medium is what is recorded in the image: the root directory at its block, and
the entries of a directory where its records lead. So an image can be planned block by block.
-/

namespace DiscVolume

namespace Volume

variable {volume : Volume σ} {image : Bytes} {ready : σ → Prop} {medium : σ}

/-- The root directory is found where its file entry is recorded. -/
theorem root_eq_ok {record : FileEntry} (serves : volume.source.Serves image ready)
    (isReady : ready medium)
    (holds : volume.HoldsFileEntry image volume.fileSet.rootDirectory.block.toNat record)
    : ∃ after, ready after
        ∧ volume.root medium = .ok (.root record volume.logical.identifier) after := by
  obtain ⟨after, readyAfter, atBlock⟩ := fileEntryAt_eq_ok serves isReady holds
  refine ⟨after, readyAfter, ?_⟩
  rw [root, Sequencing.bind_of_ok (Access.blaming_eq_ok.mpr atBlock)]
  rfl

/-- The entries of a directory are found where their file entries are recorded. -/
theorem readDirectory_eq_ok_of_recorded {parent : Entry} {identifiers : List FileIdentifier}
    (serves : volume.source.Serves image ready) (isReady : ready medium)
    (recordAt : UInt32 → FileEntry) (isDirectory : parent.isDirectory = true)
    (lists : volume.Lists image parent.record.data identifiers)
    (recorded : ∀ identifier ∈ named identifiers,
      volume.HoldsFileEntry image identifier.icb.block.toNat (recordAt identifier.icb.block))
    : ∃ after, ready after
        ∧ volume.readDirectory parent medium
          = .ok ((named identifiers).map fun identifier =>
              .child (recordAt identifier.icb.block) identifier parent) after := by
  obtain ⟨entries, after, readyAfter, listed, matched⟩ := readDirectory_eq_ok serves isReady
    isDirectory lists (fun identifier member => ⟨_, recorded identifier member⟩)
  refine ⟨after, readyAfter, listed.trans (congrArg (EStateM.Result.ok · after) ?_)⟩
  -- Entry by entry, the file entry at the block is the one that is recorded there.
  clear listed
  generalize named identifiers = named at matched recorded ⊢
  induction matched with
  | nil => rfl
  | @cons identifier entry others rest isEntry _ ih =>
      have sameRecord : entry.record = recordAt identifier.icb.block := by
        have both := isEntry.holds.decoded.symm.trans (recorded identifier (.head _)).decoded
        simpa using both
      rw [List.map_cons, isEntry.entry_eq, sameRecord,
        ih (fun other member => recorded other (.tail _ member))]

end Volume

namespace Extraction

variable {data : ByteArray} {volume : Volume Drive} {drive : Drive}

/-- A file that holds its data itself is read from its file entry. -/
theorem found_readFile {file : Entry} {bytes : Bytes} (isFile : file.isDirectory = false)
    (embedded : file.record.data = .embedded bytes)
    : found data (volume.readFile file) = .ok bytes := by
  have contains : (volume.contentsOf file).Holds bytes (Drive.Holds data) := by
    rw [Volume.contentsOf, embedded]
    exact Contents.holds_embedded bytes _
  obtain ⟨after, -, isRead⟩ := Volume.readFile_of_holds isFile contains (.fresh data)
  exact found_eq_ok.mpr ⟨after, isRead⟩

-----------------------------------------------------------------------------------------
-- Images after a plan
-----------------------------------------------------------------------------------------

/-- How a file entry starts that holds its data itself. -/
def embeddedHead (type : UInt8) (data : Bytes) : Bytes :=
  [5, 1, 2, 0, 8] ++ List.replicate 22 0 ++ [type] ++ List.replicate 6 0 ++ [3, 0]
    ++ List.replicate 136 0 ++ Bytes.ofNat 4 data.length ++ data

/-- What such a file entry says. -/
def embeddedEntry (type : UInt8) (data : Bytes) : FileEntry :=
  { blankFileEntry with
    icb := { blankFileEntry.icb with fileType := type, flags := 3 }
    allocationLength := .ofNat data.length
    data := .embedded data }

/-- Blocks with file entries that hold their data themselves, and the records that these data spell
if they are those of a directory. The root directory is at block 5.
-/
structure Plan where
  blocks : List UInt32
  typeAt : UInt32 → UInt8
  dataAt : UInt32 → Bytes
  recordsAt : UInt32 → List FileIdentifier

namespace Plan

variable {plan : Plan} {block : UInt32} {entry : Entry}

def entryAt (plan : Plan) (block : UInt32) : FileEntry :=
  embeddedEntry (plan.typeAt block) (plan.dataAt block)

/-- What the sectors of an image after the plan start with. -/
def heads (plan : Plan) : List (Nat × Bytes) :=
  (0, [0, 1, 2, 0, 3] ++ List.replicate 399 0 ++ [5])
    :: (plan.blocks.map fun block =>
        (block.toNat, embeddedHead (plan.typeAt block) (plan.dataAt block)))
    ++ bareHeads.tail

def image (plan : Plan) : ByteArray := ⟨(imageWith plan.heads).toArray⟩

/-- A plan that can be carried out: the blocks are free, and all that is listed is planned. -/
structure IsSound (plan : Plan) : Prop where
  like : IsLikeBare plan.heads
  decoded : ∀ block ∈ plan.blocks, block.toNat < 257
    ∧ Decoder.value Descriptor.decode (Cursor.ofBytes (sectorWith plan.heads block.toNat))
      = .ok (.fileEntry (plan.entryAt block))
  root_mem : 5 ∈ plan.blocks
  spells : ∀ block ∈ plan.blocks, (plan.entryAt block).isDirectory = true
    → Directory.Spells (plan.recordsAt block) (plan.dataAt block)
  leads : ∀ block ∈ plan.blocks, ∀ identifier ∈ Volume.named (plan.recordsAt block),
    identifier.icb.block ∈ plan.blocks

/-- A volume that is found on an image after the plan. -/
structure IsOpen (plan : Plan) (volume : Volume Drive) (drive : Drive) : Prop where
  opens : Opens plan.image volume drive
  rootBlock : volume.fileSet.rootDirectory.block = 5
  holds : ∀ block ∈ plan.blocks,
    volume.HoldsFileEntry plan.image.data.toList block.toNat (plan.entryAt block)

set_option maxRecDepth 20000 in
/-- Images after a plan are opened wherever they are served from. Their root directory is at block 5,
and the file entries are where they are planned.
-/
theorem IsSound.exists_volume {source : Source σ} {ready : σ → Prop} {medium : σ}
    (isSound : plan.IsSound) (serves : source.ServesToEnd plan.image.data.toList ready)
    (isReady : ready medium)
    : ∃ volume after, Volume.ofSource source medium = .ok volume after
        ∧ volume.fileSet.rootDirectory.block = 5
        ∧ ∀ block ∈ plan.blocks,
            volume.HoldsFileEntry plan.image.data.toList block.toNat (plan.entryAt block) := by
  -- What the first sector holds does not depend on the plan.
  have first : sectorWith plan.heads 0
      = sectorWith (heads ⟨[], fun _ => 0, fun _ => [], fun _ => []⟩) 0 := rfl
  have whole : plan.image.data.toList = imageWith plan.heads := rfl
  obtain ⟨_, zeroth, look⟩ := imageWith_holds plan.heads 0
    (fun descriptor => descriptor.fileSet?.map (·.rootDirectory.block)) (by decide)
    (by rw [first]; rfl)
  obtain ⟨fileSet, selected, rootBlock⟩ := Option.map_eq_some_iff.mp look
  obtain rfl := (Descriptor.selects_fileSet.some_iff _ _).mp selected
  obtain ⟨volume, after, found⟩ :=
    Volume.ofSource_of_isAcceptable serves isReady (isSound.like.isAcceptable zeroth)
  obtain ⟨start, fileSetAt⟩ :=
    isSound.like.of_describes (Volume.describes_of_ofSource serves isReady found)
  rw [zeroth] at fileSetAt
  cases fileSetAt
  refine ⟨volume, after, found, rootBlock, fun block member => ?_⟩
  obtain ⟨early, decoded⟩ := isSound.decoded block member
  have place : volume.offsetOf block.toNat = block.toNat * sectorSize := by
    simp [Volume.offsetOf, Volume.sectorOf, start]
  constructor
  · rw [place, whole, imageWith, length_sectorsWith, sectorSize]
    omega
  · rw [place, whole, slice_imageWith early]
    exact decoded

/-- The data of a planned directory list what is planned for it. -/
theorem IsSound.lists (isSound : plan.IsSound) (volume : Volume σ) (planned : block ∈ plan.blocks)
    (sameRecord : entry.record = plan.entryAt block) (isDirectory : entry.isDirectory = true)
    : volume.Lists plan.image.data.toList entry.record.data (plan.recordsAt block) := by
  rw [sameRecord]
  refine isSound.spells block planned ?_
  rwa [Entry.isDirectory, sameRecord] at isDirectory

theorem IsSound.exists_isOpen (isSound : plan.IsSound)
    : ∃ volume drive, plan.IsOpen volume drive := by
  have serves : (Drive.source plan.image.size).ServesToEnd plan.image.data.toList
      (Drive.Holds plan.image) :=
    Drive.serves_source (Nat.le_refl _)
  have isReady := serves.ready_note .opening _ (.fresh plan.image)
  obtain ⟨volume, drive, found, rootBlock, holds⟩ := isSound.exists_volume serves isReady
  refine ⟨volume, drive, ?_, rootBlock, holds⟩
  unfold Opens openImage Volume.ofSupply
  refine (Sequencing.bind_of_ok rfl).trans ((Sequencing.bind_of_ok rfl).trans ?_)
  exact Access.blaming_eq_ok.mpr found

namespace IsOpen

theorem found_root (isOpen : plan.IsOpen volume drive) (isSound : plan.IsSound)
    : found plan.image volume.root = .ok (.root (plan.entryAt 5) volume.logical.identifier) := by
  have holds : volume.HoldsFileEntry plan.image.data.toList
      volume.fileSet.rootDirectory.block.toNat (plan.entryAt 5) := by
    rw [isOpen.rootBlock]
    exact isOpen.holds 5 isSound.root_mem
  obtain ⟨after, -, rooted⟩ :=
    Volume.root_eq_ok isOpen.opens.serves.toServes (.fresh plan.image) holds
  exact found_eq_ok.mpr ⟨after, rooted⟩

/-- The directories list what is planned for them. -/
theorem found_readDirectory (isOpen : plan.IsOpen volume drive) (isSound : plan.IsSound)
    (planned : block ∈ plan.blocks) (sameRecord : entry.record = plan.entryAt block)
    (isDirectory : entry.isDirectory = true)
    : found plan.image (volume.readDirectory entry)
      = .ok ((Volume.named (plan.recordsAt block)).map fun identifier =>
          .child (plan.entryAt identifier.icb.block) identifier entry) := by
  obtain ⟨after, -, listed⟩ := Volume.readDirectory_eq_ok_of_recorded isOpen.opens.serves.toServes
    (.fresh plan.image) plan.entryAt isDirectory
    (isSound.lists volume planned sameRecord isDirectory)
    (fun identifier member => isOpen.holds _ (isSound.leads block planned identifier member))
  exact found_eq_ok.mpr ⟨after, listed⟩

/-- The entries of a directory with safe names are those of the records with safe names. -/
theorem safeChildren_eq (isOpen : plan.IsOpen volume drive) (isSound : plan.IsSound)
    (planned : block ∈ plan.blocks) (sameRecord : entry.record = plan.entryAt block)
    (isDirectory : entry.isDirectory = true)
    : safeChildren plan.image volume entry
      = ((Volume.named (plan.recordsAt block)).filter fun identifier =>
          HostPath.isSafeName identifier.name).map fun identifier =>
            .child (plan.entryAt identifier.icb.block) identifier entry := by
  have listed := isOpen.found_readDirectory isSound planned sameRecord isDirectory
  simp only [safeChildren, isDirectory, listed, if_true, List.filter_map]
  rfl

/-- All entries have the file entries that are planned for their blocks. -/
theorem record_eq (isOpen : plan.IsOpen volume drive) (isSound : plan.IsSound)
    (reached : IsReached plan.image volume entry)
    : blockOf volume entry ∈ plan.blocks
      ∧ entry.record = plan.entryAt (blockOf volume entry) := by
  induction reached with
  | root isFound =>
      rw [isOpen.found_root isSound] at isFound
      cases isFound
      rw [blockOf, isOpen.rootBlock]
      exact ⟨isSound.root_mem, rfl⟩
  | child _ isChild ih =>
      obtain ⟨isDirectory, -⟩ := mem_safeChildren.mp isChild
      rw [isOpen.safeChildren_eq isSound ih.1 ih.2 isDirectory] at isChild
      obtain ⟨identifier, recorded, rfl⟩ := List.mem_map.mp isChild
      exact ⟨isSound.leads _ ih.1 identifier (List.mem_of_mem_filter recorded), rfl⟩

/-- Files have the data that are planned for their blocks. -/
theorem found_readFile (isOpen : plan.IsOpen volume drive) (isSound : plan.IsSound)
    (reached : IsReached plan.image volume entry) (isFile : entry.isDirectory = false)
    : found plan.image (volume.readFile entry)
      = .ok (plan.dataAt (blockOf volume entry)) := by
  obtain ⟨-, sameRecord⟩ := isOpen.record_eq isSound reached
  exact Extraction.found_readFile isFile (congrArg FileEntry.data sameRecord)

theorem isReadable (isOpen : plan.IsOpen volume drive) (isSound : plan.IsSound)
    : IsReadable plan.image volume where
  exists_root := ⟨_, isOpen.found_root isSound⟩
  exists_children directory reached isDirectory := by
    obtain ⟨planned, sameRecord⟩ := isOpen.record_eq isSound reached
    exact ⟨_, isOpen.found_readDirectory isSound planned sameRecord isDirectory⟩

/-- There are no circles where directories only list what is at later blocks. -/
theorem isAcyclic (isOpen : plan.IsOpen volume drive) (isSound : plan.IsSound)
    (later : ∀ block ∈ plan.blocks, ∀ identifier ∈ Volume.named (plan.recordsAt block),
      block < identifier.icb.block)
    : IsAcyclic plan.image volume := by
  refine .of_lt (fun directory entry reached isChild => ?_)
  obtain ⟨planned, sameRecord⟩ := isOpen.record_eq isSound reached
  obtain ⟨isDirectory, -⟩ := mem_safeChildren.mp isChild
  rw [isOpen.safeChildren_eq isSound planned sameRecord isDirectory] at isChild
  obtain ⟨identifier, recorded, rfl⟩ := List.mem_map.mp isChild
  exact later _ planned identifier (List.mem_of_mem_filter recorded)

end IsOpen

end Plan

end Extraction

end DiscVolume
