import DiscVolume.Proofs.Descriptor.Verdicts
import DiscVolume.Proofs.Medium.Verdicts
import DiscVolume.Proofs.Volume.Acceptance
import DiscVolume.Proofs.Volume.Blocks

/-! Whatever image a source serves, opening it and finding the way through its directories fail
with a verdict on the image, unless a request does not fit the entry it is made for or a path leads
nowhere.
-/

namespace DiscVolume

open Access Sequencing

instance (kind actual : Int) (sector : Nat)
    : Defect.FromBytes (.tagMismatchAtSector kind actual sector) := ⟨nofun⟩

instance (tag : Int) : Defect.FromBytes (.noDescriptor tag) := ⟨nofun⟩
instance : Defect.FromBytes .unsupportedFormat := ⟨nofun⟩

/-- Sectors that do not decode are condemned. -/
theorem Bytes.isVerdict_of_sectorValue {image : Bytes} {decoder : Decoder α} [decoder.Judging]
    {sector : Nat} {failure : Failure} (broken : image.sectorValue decoder sector = .error failure)
    : failure.IsVerdict := by
  unfold sectorValue at broken
  split at broken
  · exact Decoder.isVerdict_of_value broken
  · cases broken
    exact .truncated _

namespace Source

variable {source : Source σ} {image : Bytes} {ready : σ → Prop} {sector : Nat}

theorem decodeSector_failsOnly (serves : source.ServesToEnd image ready)
    (reaches : Reaches image sector) (decoder : Decoder α) [decoder.Judging]
    : (source.decodeSector sector decoder).FailsOnly ready Failure.IsVerdict :=
  .of_answers (decodeSector_answers serves reaches decoder)
    (fun _ => Bytes.isVerdict_of_sectorValue)

theorem descriptorAt_failsOnly (serves : source.ServesToEnd image ready)
    (reaches : Reaches image sector) (kind : DescriptorKind) (select : Descriptor → Option α)
    : (source.descriptorAt sector kind select).FailsOnly ready Failure.IsVerdict := by
  refine (decodeSector_failsOnly serves reaches Descriptor.decode).bind (fun descriptor => ?_)
  cases select descriptor with
  | some value => exact .pure _
  | none => exact .throw (.malformed _)

theorem sequenceFrom_failsOnly (serves : source.ServesToEnd image ready)
    (reaches : Reaches image sector) (decoder : Decoder α) [decoder.Judging] (isLast : α → Bool)
    : (source.sequenceFrom decoder isLast sector).FailsOnly ready Failure.IsVerdict := by
  obtain ⟨outcome, search, answers⟩ := sequenceFrom_answers serves reaches decoder isLast
  refine .of_answers answers ?_
  rintro failure rfl
  obtain ⟨_, broken⟩ := search.broken
  exact Bytes.isVerdict_of_sectorValue broken

end Source

theorem Descriptor.isVerdict_of_first {kind : DescriptorKind} {select : Descriptor → Option α}
    {sequence : List Descriptor} {failure : Failure}
    (failed : first kind select sequence = .error failure)
    : failure.IsVerdict := by
  unfold first at failed
  split at failed
  · cases failed
  · cases failed
    exact .malformed _

namespace Volume

variable {source : Source σ} {volume : Volume σ} {image : Bytes} {ready : σ → Prop}

/-- Opening an image fails only with a verdict on it. -/
theorem ofSource_failsOnly (serves : source.ServesToEnd image ready)
    : (ofSource source).FailsOnly ready Failure.IsVerdict := by
  have finds {α : Type} (kind : DescriptorKind) (select : Descriptor → Option α)
      (sequence : List Descriptor)
      : (settle (Descriptor.first kind select sequence)).FailsOnly ready Failure.IsVerdict :=
    .of_answers (.settle _ ready) (fun _ => Descriptor.isVerdict_of_first)
  refine .bind (Source.sequenceFrom_failsOnly serves (.inr (by decide)) _ _) (fun recognition => ?_)
  refine .bind (serves.tell_failsOnly _) (fun _ => ?_)
  split
  · exact .throw (.malformed _)
  refine .bind (Source.descriptorAt_failsOnly serves (.inr (by decide)) _ _) (fun anchor => ?_)
  refine .bind (Source.sequenceFrom_failsOnly serves (reaches_toNat ..) _ _) (fun main => ?_)
  refine .bind (serves.tell_failsOnly _) (fun _ => ?_)
  refine .bind (finds _ _ _) (fun primary => ?_)
  refine .bind (finds _ _ _) (fun partition => ?_)
  refine .bind (finds _ _ _) (fun logical => ?_)
  refine .bind (Source.descriptorAt_failsOnly serves (reaches_toNat ..) _ _) (fun fileSet => ?_)
  exact .pure _

/-- An open volume goes on reading from the source it was found on. -/
theorem source_of_ofSource {medium after : σ} (opened : ofSource source medium = .ok volume after)
    : volume.source = source := by
  obtain ⟨recognition, _, -, rest⟩ := bind_ok_iff.mp opened
  obtain ⟨_, _, -, rest⟩ := bind_ok_iff.mp rest
  split at rest
  · cases rest
  · obtain ⟨anchor, _, -, rest⟩ := bind_ok_iff.mp rest
    obtain ⟨main, _, -, rest⟩ := bind_ok_iff.mp rest
    obtain ⟨_, _, -, rest⟩ := bind_ok_iff.mp rest
    obtain ⟨primary, _, -, rest⟩ := bind_ok_iff.mp rest
    obtain ⟨partition, _, -, rest⟩ := bind_ok_iff.mp rest
    obtain ⟨logical, _, -, rest⟩ := bind_ok_iff.mp rest
    obtain ⟨fileSet, _, -, rest⟩ := bind_ok_iff.mp rest
    cases rest
    rfl

theorem fileEntryAt_failsOnly {block : Nat} (serves : volume.source.ServesToEnd image ready)
    (recorded : block < UInt32.size)
    : (volume.fileEntryAt block).FailsOnly ready Failure.IsVerdict :=
  Source.descriptorAt_failsOnly serves (.inr (offsetOf_lt recorded)) _ _

/-- Finding the root directory fails only with a verdict on the image. -/
theorem root_failsOnly (serves : volume.source.ServesToEnd image ready)
    : volume.root.FailsOnly ready Failure.IsVerdict := by
  have found := fileEntryAt_failsOnly serves volume.fileSet.rootDirectory.block.toNat_lt
  exact .bind (found.blaming Failure.IsVerdict.ne_medium) (fun _ => .pure _)

/-- The records of a directory lead to verdicts only, by induction on the records. -/
theorem entriesOf_failsOnly (serves : volume.source.ServesToEnd image ready) (parent : Entry)
    (identifiers : List FileIdentifier)
    : (volume.entriesOf parent identifiers).FailsOnly ready Failure.IsVerdict := by
  induction identifiers with
  | nil => exact .pure _
  | cons identifier others ih =>
      rw [entriesOf]
      split
      · have found := fileEntryAt_failsOnly serves identifier.icb.block.toNat_lt
        exact found.bind (fun _ => ih.bind (fun _ => .pure _))
      · exact ih

theorem entriesIn_failsOnly (serves : volume.source.ServesToEnd image ready) (parent : Entry)
    (size : Nat) (data : Bytes)
    : (volume.entriesIn parent size data).FailsOnly ready Failure.IsVerdict := by
  refine (entriesOf_failsOnly serves parent _).bind (fun entries => ?_)
  cases stopped : (Directory.records size (Cursor.ofBytes data)).2 with
  | none => exact .pure _
  | some failure => exact .throw (Directory.isVerdict_of_records stopped)

/-- The pieces of a directory are read with verdicts only, by induction on the pieces. -/
theorem entriesAt_failsOnly (serves : volume.source.ServesToEnd image ready) (parent : Entry)
    {pieces : List (Nat × Nat)}
    (recorded : ∀ piece ∈ pieces, piece.1 < UInt32.size ∧ piece.2 < 0x40000000)
    : (volume.entriesAt parent pieces).FailsOnly ready Failure.IsVerdict := by
  induction pieces with
  | nil => exact .pure _
  | cons piece others ih =>
      obtain ⟨block, size⟩ := piece
      obtain ⟨blockBounded, sizeBounded⟩ := recorded (block, size) (by simp)
      have short := sectorsFor_mul_lt sizeBounded
      have place : (volume.offsetOf block : Int) < indexLimit := offsetOf_lt blockBounded
      have read := serves.failsOnly place short
      have rest := ih (fun other member => recorded other (List.mem_cons_of_mem _ member))
      refine read.bind (fun data => ?_)
      refine (entriesIn_failsOnly serves parent size data).bind (fun entries => ?_)
      exact rest.bind (fun _ => .pure _)

theorem entriesFor_failsOnly (serves : volume.source.ServesToEnd image ready) (parent : Entry)
    : (volume.entriesFor parent).FailsOnly ready Failure.IsVerdict := by
  unfold entriesFor
  split
  · exact entriesIn_failsOnly serves parent _ _
  · exact entriesAt_failsOnly serves parent (fun piece member =>
      ⟨FileData.block_lt _ piece member, FileData.length_lt _ piece member⟩)

/-- Reading a directory fails only with a verdict on the image, or because the entry is none. -/
theorem readDirectory_failsOnly (serves : volume.source.ServesToEnd image ready) (parent : Entry)
    : (volume.readDirectory parent).FailsOnly ready (Failure.IsJustified (fun misuse =>
        parent.isDirectory = false ∧ misuse = .notADirectory parent.name)) := by
  unfold readDirectory
  by_cases isDirectory : parent.isDirectory = true
  · rw [if_neg (by simp [isDirectory])]
    have found : (blaming .directory (volume.entriesFor parent)).FailsOnly ready
        Failure.IsVerdict :=
      (entriesFor_failsOnly serves parent).blaming Failure.IsVerdict.ne_medium
    refine (found.bind (fun entries => ?_)).justified _
    exact (serves.tell_failsOnly _).bind (fun _ => .pure _)
  · rw [if_pos (by simp [isDirectory])]
    exact .throw (.misuse ⟨by simpa using isDirectory, rfl⟩)

-----------------------------------------------------------------------------------------
-- Paths
-----------------------------------------------------------------------------------------

section Paths

variable {path name : String} {root entry found : Entry} {names others : List String}
variable {start medium middle after : σ} {failure : Failure} {entries : List Entry}

theorem follow_of_leaf (noDirectory : entry.isDirectory = false)
    : volume.follow path entry (name :: others) medium
      = .error (.misused (.notADirectory entry.name)) medium := by
  rw [follow, if_pos (by simp [noDirectory])]
  rfl

theorem follow_of_unread (isDirectory : entry.isDirectory = true)
    (failed : volume.readDirectory entry medium = .error failure after)
    : volume.follow path entry (name :: others) medium = .error failure after := by
  rw [follow, if_neg (by simp [isDirectory]), bind_of_error failed]

theorem follow_of_missing (isDirectory : entry.isDirectory = true)
    (read : volume.readDirectory entry medium = .ok entries after)
    (absent : entries.find? (·.name == name) = none)
    : volume.follow path entry (name :: others) medium
      = .error (.misused (.noSuchPath path)) after := by
  rw [follow, if_neg (by simp [isDirectory]), bind_of_ok read, absent]
  rfl

theorem follow_of_present (isDirectory : entry.isDirectory = true)
    (read : volume.readDirectory entry medium = .ok entries after)
    (present : entries.find? (·.name == name) = some found)
    : volume.follow path entry (name :: others) medium = volume.follow path found others after := by
  rw [follow, if_neg (by simp [isDirectory]), bind_of_ok read, present]

/-- Names lead to an entry only through a directory that has an entry of the first name. -/
theorem follow_cons_ok
    (followed : volume.follow path entry (name :: others) medium = .ok found after)
    : ∃ entries middle next, entry.isDirectory = true
        ∧ volume.readDirectory entry medium = .ok entries middle
        ∧ entries.find? (·.name == name) = some next
        ∧ volume.follow path next others middle = .ok found after := by
  cases isDirectory : entry.isDirectory with
  | false =>
      rw [follow_of_leaf isDirectory] at followed
      cases followed
  | true =>
      cases read : volume.readDirectory entry medium with
      | error failure middle =>
          rw [follow_of_unread isDirectory read] at followed
          cases followed
      | ok entries middle =>
          cases sought : entries.find? (·.name == name) with
          | none =>
              rw [follow_of_missing isDirectory read sought] at followed
              cases followed
          | some next =>
              rw [follow_of_present isDirectory read sought] at followed
              exact ⟨entries, middle, next, rfl, rfl, sought, followed⟩

/-- Where names lead to an entry, more names are followed from there, by induction on the names. -/
theorem follow_append (followed : volume.follow path entry names medium = .ok found after)
    (others : List String)
    : volume.follow path entry (names ++ others) medium
      = volume.follow path found others after := by
  induction names generalizing entry medium with
  | nil =>
      cases followed
      rfl
  | cons name names ih =>
      obtain ⟨entries, middle, next, isDirectory, read, sought, rest⟩ := follow_cons_ok followed
      rw [List.cons_append, follow_of_present isDirectory read sought]
      exact ih rest

/-- A lookup of a path that starts on a medium comes to an entry where a name is still to be found:
the names before it lead there from the root.
-/
inductive ComesTo (volume : Volume σ) (path : String) (start : σ) (entry : Entry) (name : String)
    (medium : σ)
    : Prop where
  | intro {root : Entry} {middle : σ} {before behind : List String}
      (split : components path = before ++ name :: behind)
      (rooted : volume.root start = .ok root middle)
      (followed : volume.follow path root before middle = .ok entry medium)
      : ComesTo volume path start entry name medium

/-- How a path leads nowhere when it is looked up: what it comes to is no directory though a name is
still to be found there, or is a directory that has no entry of that name.
-/
inductive Strays (volume : Volume σ) (path : String) (start : σ) : Misuse → Prop where
  | throughFile {entry : Entry} {name : String} {medium : σ}
      (comes : volume.ComesTo path start entry name medium) (isFile : entry.isDirectory = false)
      : Strays volume path start (.notADirectory entry.name)
  | missing {directory : Entry} {name : String} {entries : List Entry} {medium after : σ}
      (comes : volume.ComesTo path start directory name medium)
      (listed : volume.readDirectory directory medium = .ok entries after)
      (absent : ∀ entry ∈ entries, entry.name ≠ name)
      : Strays volume path start (.noSuchPath path)

/-- What is left of a path leads to a verdict or astray, if not to an entry, by induction on the
names that are left. The names before them have led to where they are followed from.
-/
theorem follow_ends (serves : volume.source.ServesToEnd image ready) {before : List String}
    (split : components path = before ++ names) (rooted : volume.root start = .ok root middle)
    (followed : volume.follow path root before middle = .ok entry medium) (isReady : ready medium)
    : Ends (volume.follow path entry names medium) ready
        (Failure.IsJustified (volume.Strays path start)) := by
  induction names generalizing before entry medium with
  | nil => exact isReady
  | cons name others ih =>
      have comes : volume.ComesTo path start entry name medium := ⟨split, rooted, followed⟩
      cases isDirectory : entry.isDirectory with
      | false =>
          rw [follow_of_leaf isDirectory]
          exact ⟨isReady, .misuse (.throughFile comes isDirectory)⟩
      | true =>
          have listing := readDirectory_failsOnly serves entry medium isReady
          cases read : volume.readDirectory entry medium with
          | error failure after =>
              rw [read] at listing
              rw [follow_of_unread isDirectory read]
              refine ⟨listing.1, listing.2.mono ?_⟩
              rintro misuse ⟨isFile, -⟩
              rw [isDirectory] at isFile
              cases isFile
          | ok entries after =>
              rw [read] at listing
              cases sought : entries.find? (·.name == name) with
              | none =>
                  rw [follow_of_missing isDirectory read sought]
                  refine ⟨listing, .misuse (.missing comes read ?_)⟩
                  intro other member
                  simpa using List.find?_eq_none.mp sought other member
              | some next =>
                  have further
                      : volume.follow path root (before ++ [name]) middle = .ok next after := by
                    rw [follow_append followed, follow_of_present isDirectory read sought]
                    rfl
                  rw [follow_of_present isDirectory read sought]
                  exact ih (by simp [split]) further listing

/-- Looking up a path fails only with a verdict on the image, or because the path leads nowhere. -/
theorem lookup_ends (serves : volume.source.ServesToEnd image ready) (path : String)
    (isReady : ready start)
    : Ends (volume.lookup path start) ready (Failure.IsJustified (volume.Strays path start)) := by
  refine ((root_failsOnly serves).justified _ start isReady).bind ?_
  intro root middle rooted readyMiddle
  exact follow_ends serves (List.nil_append (components path)).symm rooted rfl readyMiddle

end Paths

/-- Opening what a supply stands for fails only with a verdict on the image. -/
theorem ofSupply_failsOnly {supply : Supply σ} (chosen : supply.toSource = .ok source)
    (serves : source.ServesToEnd image ready)
    : (ofSupply supply).FailsOnly ready Failure.IsVerdict := by
  rw [ofSupply, chosen]
  refine .bind_found (.pure source) (fun found medium after _ same => ?_)
  cases same
  refine (serves.tell_failsOnly _).bind (fun _ => ?_)
  exact (ofSource_failsOnly serves).blaming Failure.IsVerdict.ne_medium

/-- What is opened from a supply reads from the source that the supply stands for. -/
theorem source_of_ofSupply {supply : Supply σ} {medium after : σ}
    (chosen : supply.toSource = .ok source) (opened : ofSupply supply medium = .ok volume after)
    : volume.source = source := by
  rw [ofSupply, chosen] at opened
  obtain ⟨_, _, same, rest⟩ := bind_ok_iff.mp opened
  cases same
  obtain ⟨_, _, -, rest⟩ := bind_ok_iff.mp rest
  exact source_of_ofSource (blaming_eq_ok.mp rest)

end Volume

end DiscVolume
