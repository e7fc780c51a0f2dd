import DiscVolume.Proofs.Directory.Reach
import DiscVolume.Proofs.Medium.Metered
import DiscVolume.Proofs.Volume.Alike
import DiscVolume.Proofs.Volume.Scans
import DiscVolume.Proofs.Volume.Verdicts

/-! How much is read at most. Whatever an image holds, opening it ends with the image, reading a
directory ends with the bytes recorded for it, and following a path ends with its names. A metered
source shows how many requests that takes.
-/

namespace DiscVolume

open Sequencing

-----------------------------------------------------------------------------------------
-- Records
-----------------------------------------------------------------------------------------

namespace Directory

/-- The fewest bytes that a record takes up. -/
def leastSize : Nat := 40

/-- Records are recorded in no fewer bytes than the least. -/
theorem leastSize_le_recordedSize (identifier : FileIdentifier)
    : leastSize ≤ identifier.recordedSize := by
  rw [leastSize, FileIdentifier.recordedSize, padding, Int.fdiv_eq_ediv_of_nonneg _ (by decide)]
  omega

/-- A record that is read takes up at least so many bytes. -/
theorem offset_add_leastSize_le {cursor next : Cursor} {identifier : FileIdentifier}
    (found : record cursor = .ok identifier next)
    : cursor.offset + leastSize ≤ next.offset := by
  have ends := (FileIdentifier.ends_of_decode (record_eq_ok_iff.mp found)).1
  have least := leastSize_le_recordedSize identifier
  omega

/-- How often a record is looked for: once for each that is found, and once more where one cannot be
read.
-/
def attempts (size : Nat) (cursor : Cursor) : Nat :=
  (records size cursor).1.length + (records size cursor).2.toList.length

/-- The most records that are looked for in a number of bytes. -/
def attemptsWithin (size : Nat) : Nat := (size + (leastSize - 1)) / leastSize

/-- Every record that is found leaves fewer bytes to look for another in. By induction on the bytes
up to the size.
-/
theorem attempts_le (size : Nat) (cursor : Cursor)
    : attempts size cursor ≤ attemptsWithin (size - cursor.offset) := by
  induction left : size - cursor.offset using Nat.strongRecOn generalizing cursor with
  | ind left ih =>
      subst left
      by_cases before : cursor.offset < size
      · cases result : record cursor with
        | ok identifier next =>
            have further := offset_add_leastSize_le result
            have others := ih (size - next.offset) (by rw [leastSize] at further; omega) next rfl
            rw [attempts, records_of_ok before result]
            rw [attempts] at others
            simp only [List.length_cons, attemptsWithin, leastSize] at *
            omega
        | error failure next =>
            rw [attempts, records_of_error before result]
            simp only [List.length_nil, Option.toList_some, List.length_singleton, attemptsWithin,
              leastSize]
            omega
      · rw [attempts, records_eq_nil_iff.mpr (Nat.not_lt.mp before)]
        exact Nat.zero_le _

end Directory

-----------------------------------------------------------------------------------------
-- Sectors
-----------------------------------------------------------------------------------------

namespace Source

variable {source : Source σ} {image : Bytes} {ready : σ → Prop}

theorem decodeSector_costs (source : Source σ) (sector : Nat) (decoder : Decoder α)
    : Access.Costs (fun _ => True) (source.metered.decodeSector sector decoder)
        (source.decodeSector sector decoder) 1 :=
  (source.readExactly_costs _ _).bind_anywhere (Nat.le_refl 1) fun _ => .settle _ _

theorem descriptorAt_costs (source : Source σ) (sector : Nat) (kind : DescriptorKind)
    (select : Descriptor → Option α)
    : Access.Costs (fun _ => True) (source.metered.descriptorAt sector kind select)
        (source.descriptorAt sector kind select) 1 := by
  refine (source.decodeSector_costs sector Descriptor.decode).bind_anywhere (Nat.le_refl 1)
    fun descriptor => ?_
  cases select descriptor with
  | some value => exact .pure value _
  | none => exact .throw _ _

/-- A medium that is ready stays ready when progress is noted. -/
theorem ServesToEnd.keeps_tell (serves : source.ServesToEnd image ready) (note : Note) (medium : σ)
    (told : Unit) (after : σ) (isReady : ready medium)
    (found : source.tell note medium = .ok told after)
    : ready after := by
  cases found
  exact serves.ready_note note medium isReady

/-- A sequence costs no more requests than the image has sectors behind its start, and one that
fails. By induction on how many these are.
-/
theorem ServesToEnd.sequenceFrom_costs (serves : source.ServesToEnd image ready) {sector : Nat}
    (reaches : Reaches image sector) (decoder : Decoder α) (isLast : α → Bool)
    : Access.Costs ready (source.metered.sequenceFrom decoder isLast sector)
        (source.sequenceFrom decoder isLast sector)
        (1 + (image.length / sectorSize - sector)) := by
  induction left : image.length / sectorSize - sector using Nat.strongRecOn generalizing sector with
  | ind left ih =>
      subst left
      have keeps (medium value after) (isReady : ready medium)
          (decoded : source.decodeSector sector decoder medium = .ok value after)
          : ready after ∧ sector + 1 ≤ image.length / sectorSize := by
        obtain ⟨valued, readyAfter⟩ :=
          (decodeSector_answers serves reaches decoder).of_eq_ok isReady decoded
        refine ⟨readyAfter, ?_⟩
        rw [Nat.le_div_iff_mul_le (by decide), Nat.add_mul, Nat.one_mul]
        exact Bytes.stop_le_of_sectorValue valued
      have same : source.metered.capacity = source.capacity := rfl
      unfold sequenceFrom
      rw [same]
      refine (source.decodeSector_costs sector decoder).anywhere.bind (Nat.le_add_right 1 _) keeps
        fun value => .given fun counted => ?_
      rw [Nat.add_sub_cancel_left]
      split
      · exact .pure [value] _
      · split
        · have others := ih (image.length / sectorSize - (sector + 1)) (by omega)
            (.inl ((Nat.le_div_iff_mul_le (by decide)).mp counted)) rfl
          exact (others.mono (by omega)).bind (Nat.le_refl _) (fun _ _ _ _ _ => trivial)
            fun more => .pure (value :: more) _
        · exact .throw _ _

end Source

-----------------------------------------------------------------------------------------
-- Opening
-----------------------------------------------------------------------------------------

namespace Volume

/-- A volume that is read through a meter. -/
def metered (volume : Volume σ) : Volume (Nat × σ) := volume.over volume.source.metered

section

variable {source : Source σ} {image : Bytes} {ready : σ → Prop}

/-- The most requests that it takes to open an image: each sequence has no more sectors than the
image and may end with one that fails, and two descriptors stand alone.
-/
def openingBound (image : Bytes) : Nat := 2 * (image.length / sectorSize) + 4

/-- Opening reads two sequences and two descriptors. -/
theorem ofSource_costs (serves : source.ServesToEnd image ready)
    : Access.Costs ready (ofSource source.metered) (metered <$> ofSource source)
        (openingBound image) := by
  have small : Source.Reaches image recognitionSector := .inr (by decide)
  obtain ⟨_, -, recognized⟩ := Source.sequenceFrom_answers serves small VolumeStructure.decode
    VolumeStructure.endsSequence
  unfold ofSource openingBound
  simp only [map_bind]
  refine (serves.sequenceFrom_costs small _ _).bind (by omega) recognized.keeps
    fun recognition => ?_
  refine (source.tell_costs _).anywhere.bind (by omega) (serves.keeps_tell _) fun _ => ?_
  split
  · exact .throw _ _
  · simp only [map_bind]
    refine (source.descriptorAt_costs _ _ _).anywhere.bind (by omega)
      (Source.descriptorAt_answers serves (.inr (by decide)) _ _).keeps fun anchor => ?_
    -- How the rest goes does not depend on the medium any more.
    refine (serves.sequenceFrom_costs (reaches_toNat _ _) _ _).bind (by omega)
      (fun _ _ _ _ _ => trivial) fun main => ?_
    refine (source.tell_costs _).bind_anywhere (by omega) fun _ => ?_
    refine (Access.Costs.settle _ 0).bind_anywhere (by omega) fun primary => ?_
    refine (Access.Costs.settle _ 0).bind_anywhere (by omega) fun partition => ?_
    refine (Access.Costs.settle _ 0).bind_anywhere (by omega) fun logical => ?_
    refine (source.descriptorAt_costs _ _ _).bind_anywhere (by omega) fun fileSet => ?_
    exact .pure _ _

theorem ofSupply_costs {supply : Supply σ} (chosen : supply.toSource = .ok source)
    (serves : source.ServesToEnd image ready)
    : Access.Costs ready (ofSupply supply.metered) (metered <$> ofSupply supply)
        (openingBound image) := by
  have opened : ofSupply supply
      = source.tell .opening >>= fun _ => Access.blaming .opening (ofSource source) := by
    rw [ofSupply, chosen]
    exact pure_bind source _
  have openedMetered : ofSupply supply.metered
      = source.metered.tell .opening >>= fun _ =>
          Access.blaming .opening (ofSource source.metered) := by
    rw [ofSupply, Supply.toSource_metered chosen]
    exact pure_bind source.metered _
  rw [opened, openedMetered, map_bind]
  refine (source.tell_costs _).anywhere.bind (Nat.zero_le _) (serves.keeps_tell _) fun _ => ?_
  rw [Access.map_blaming, Nat.sub_zero]
  exact (ofSource_costs serves).blaming .opening

end

-----------------------------------------------------------------------------------------
-- Directories
-----------------------------------------------------------------------------------------

theorem fileEntryAt_costs (volume : Volume σ) (block : Nat)
    : Access.Costs (fun _ => True) (volume.metered.fileEntryAt block) (volume.fileEntryAt block)
        1 :=
  volume.source.descriptorAt_costs _ _ _

/-- The root directory is found in one sector. -/
theorem root_costs (volume : Volume σ)
    : Access.Costs (fun _ => True) volume.metered.root volume.root 1 :=
  ((volume.fileEntryAt_costs _).blaming _).bind_anywhere (Nat.le_refl 1) fun _ => .pure _ _

/-- Every record asks for one file entry at most. -/
theorem entriesOf_costs (volume : Volume σ) (parent : Entry) (identifiers : List FileIdentifier)
    : Access.Costs (fun _ => True) (volume.metered.entriesOf parent identifiers)
        (volume.entriesOf parent identifiers) identifiers.length := by
  induction identifiers with
  | nil => exact .pure [] _
  | cons identifier others ih =>
      rw [entriesOf, entriesOf, List.length_cons]
      split
      · refine (volume.fileEntryAt_costs _).bind_anywhere (Nat.le_add_left 1 _) fun record => ?_
        rw [Nat.add_sub_cancel]
        exact ih.bind_anywhere (Nat.le_refl _) fun more => .pure _ _
      · exact ih.mono (Nat.le_succ _)

theorem entriesIn_costs (volume : Volume σ) (parent : Entry) (size : Nat) (data : Bytes)
    : Access.Costs (fun _ => True) (volume.metered.entriesIn parent size data)
        (volume.entriesIn parent size data) (Directory.attemptsWithin size) := by
  have enough : (Directory.records size (Cursor.ofBytes data)).1.length
      ≤ Directory.attemptsWithin size :=
    Nat.le_trans (Nat.le_add_right _ _) (Directory.attempts_le size (Cursor.ofBytes data))
  refine (volume.entriesOf_costs parent _).bind_anywhere enough fun entries => ?_
  split
  · exact .pure _ _
  · exact .throw _ _

/-- The most requests that it takes to read the pieces of a directory: one for each piece, and one
for each record that its bytes have room for.
-/
def piecesBound : List (Nat × Nat) → Nat
  | [] => 0
  | (_, size) :: others => 1 + (Directory.attemptsWithin size + piecesBound others)

theorem entriesAt_costs (volume : Volume σ) (parent : Entry) (pieces : List (Nat × Nat))
    : Access.Costs (fun _ => True) (volume.metered.entriesAt parent pieces)
        (volume.entriesAt parent pieces) (piecesBound pieces) := by
  induction pieces with
  | nil => exact .pure [] _
  | cons piece others ih =>
      obtain ⟨block, size⟩ := piece
      rw [entriesAt, entriesAt, piecesBound]
      refine (volume.source.readExactly_costs _ _).bind_anywhere (Nat.le_add_right 1 _)
        fun data => ?_
      rw [Nat.add_sub_cancel_left]
      refine (volume.entriesIn_costs parent size data).bind_anywhere (Nat.le_add_right _ _)
        fun entries => ?_
      rw [Nat.add_sub_cancel_left]
      exact ih.bind_anywhere (Nat.le_refl _) fun more => .pure _ _

/-- The most requests that it takes to read a directory. -/
def readingBound (parent : Entry) : Nat :=
  match parent.record.data with
  | .embedded data => Directory.attemptsWithin data.length
  | recorded => piecesBound recorded.allocations

theorem entriesFor_costs (volume : Volume σ) (parent : Entry)
    : Access.Costs (fun _ => True) (volume.metered.entriesFor parent) (volume.entriesFor parent)
        (readingBound parent) := by
  unfold entriesFor readingBound
  cases parent.record.data with
  | embedded data => exact volume.entriesIn_costs parent data.length data
  | short | long => exact volume.entriesAt_costs parent _

/-- A directory is read with as many requests as the bytes recorded for it have room for. -/
theorem readDirectory_costs (volume : Volume σ) (parent : Entry)
    : Access.Costs (fun _ => True) (volume.metered.readDirectory parent)
        (volume.readDirectory parent) (readingBound parent) := by
  unfold readDirectory
  split
  · exact .throw _ _
  · refine ((volume.entriesFor_costs parent).blaming _).bind_anywhere (Nat.le_refl _)
      fun entries => ?_
    exact (volume.source.tell_costs _).bind_anywhere (Nat.zero_le _) fun _ => .pure _ _

-----------------------------------------------------------------------------------------
-- Paths
-----------------------------------------------------------------------------------------

/-- The way along names from an entry, with the directories that are read on it and the result that
it comes to.
-/
inductive Follows (volume : Volume σ) (path : String)
    : Entry → List String → σ → List Entry → EStateM.Result Failure σ Entry → Prop where
  | arrived {entry medium} : Follows volume path entry [] medium [] (.ok entry medium)
  | leaf {entry name others medium} (noDirectory : entry.isDirectory = false)
      : Follows volume path entry (name :: others) medium []
          (.error (.misused (.notADirectory entry.name)) medium)
  | unread {entry name others medium failure after} (isDirectory : entry.isDirectory = true)
      (failed : volume.readDirectory entry medium = .error failure after)
      : Follows volume path entry (name :: others) medium [entry] (.error failure after)
  | missing {entry name others medium entries after} (isDirectory : entry.isDirectory = true)
      (read : volume.readDirectory entry medium = .ok entries after)
      (absent : entries.find? (·.name == name) = none)
      : Follows volume path entry (name :: others) medium [entry]
          (.error (.misused (.noSuchPath path)) after)
  | next {entry name others medium entries found after passed result}
      (isDirectory : entry.isDirectory = true)
      (read : volume.readDirectory entry medium = .ok entries after)
      (present : entries.find? (·.name == name) = some found)
      (rest : Follows volume path found others after passed result)
      : Follows volume path entry (name :: others) medium (entry :: passed) result

section

variable {volume : Volume σ} {path : String} {entry : Entry} {names : List String} {medium : σ}
variable {passed : List Entry} {result : EStateM.Result Failure σ Entry}

/-- Names are followed on one way, by induction on the names. -/
theorem exists_follows (volume : Volume σ) (path : String) (entry : Entry) (names : List String)
    (medium : σ)
    : ∃ passed,
        volume.Follows path entry names medium passed (volume.follow path entry names medium) := by
  induction names generalizing entry medium with
  | nil => exact ⟨[], .arrived⟩
  | cons name others ih =>
      cases isDirectory : entry.isDirectory with
      | false =>
          rw [follow_of_leaf isDirectory]
          exact ⟨[], .leaf isDirectory⟩
      | true =>
          cases read : volume.readDirectory entry medium with
          | error failure after =>
              rw [follow_of_unread isDirectory read]
              exact ⟨[entry], .unread isDirectory read⟩
          | ok entries after =>
              cases sought : entries.find? (·.name == name) with
              | none =>
                  rw [follow_of_missing isDirectory read sought]
                  exact ⟨[entry], .missing isDirectory read sought⟩
              | some found =>
                  obtain ⟨passed, rest⟩ := ih found after
                  rw [follow_of_present isDirectory read sought]
                  exact ⟨entry :: passed, .next isDirectory read sought rest⟩

/-- No more directories are read than there are names, by induction on the way. -/
theorem Follows.length_le (follows : volume.Follows path entry names medium passed result)
    : passed.length ≤ names.length := by
  induction follows with
  | arrived | leaf => exact Nat.zero_le _
  | unread | missing => exact Nat.succ_le_succ (Nat.zero_le _)
  | next _ _ _ _ ih => exact Nat.succ_le_succ ih

/-- The most requests that it takes to read some directories. -/
def readingsBound : List Entry → Nat
  | [] => 0
  | entry :: others => readingBound entry + readingsBound others

/-- A way costs what it costs to read the directories on it, by induction on the way. -/
theorem Follows.costs (follows : volume.Follows path entry names medium passed result)
    (requests : Nat)
    : ∃ spent ≤ readingsBound passed,
        volume.metered.follow path entry names (requests, medium)
          = (volume.follow path entry names).beside (requests + spent, medium) := by
  induction follows generalizing requests with
  | arrived => exact ⟨0, Nat.zero_le _, rfl⟩
  | leaf noDirectory =>
      refine ⟨0, Nat.zero_le _, ?_⟩
      rw [follow_of_leaf noDirectory, Access.beside_of_error (follow_of_leaf noDirectory)]
      rfl
  | @unread entry _ _ medium _ _ isDirectory failed =>
      obtain ⟨spent, within, same⟩ := volume.readDirectory_costs entry requests medium trivial
      rw [Access.beside_of_error failed] at same
      refine ⟨spent, within, ?_⟩
      rw [follow_of_unread isDirectory same,
        Access.beside_of_error (follow_of_unread isDirectory failed)]
  | @missing entry _ _ medium _ _ isDirectory read absent =>
      obtain ⟨spent, within, same⟩ := volume.readDirectory_costs entry requests medium trivial
      rw [Access.beside_of_ok read] at same
      refine ⟨spent, within, ?_⟩
      rw [follow_of_missing isDirectory same absent,
        Access.beside_of_error (follow_of_missing isDirectory read absent)]
  | @next entry _ _ medium _ _ after passed _ isDirectory read present _ ih =>
      obtain ⟨spent, within, same⟩ := volume.readDirectory_costs entry requests medium trivial
      rw [Access.beside_of_ok read] at same
      obtain ⟨more, withinRest, sameRest⟩ := ih (requests + spent)
      refine ⟨spent + more, Nat.add_le_add within withinRest, ?_⟩
      rw [follow_of_present isDirectory same present, sameRest, Access.beside, Access.beside,
        follow_of_present isDirectory read present, Nat.add_assoc]

/-- A lookup reads the root and then the directories on one way from it, if there is a root. -/
theorem lookup_follows (volume : Volume σ) (path : String) (requests : Nat) (medium : σ)
    : ∃ passed : List Entry, passed.length ≤ (components path).length
        ∧ (∀ root after, volume.root medium = .ok root after
          → volume.Follows path root (components path) after passed (volume.lookup path medium))
        ∧ ∃ spent ≤ 1 + readingsBound passed,
            volume.metered.lookup path (requests, medium)
              = (volume.lookup path).beside (requests + spent, medium) := by
  obtain ⟨spent, within, same⟩ := volume.root_costs requests medium trivial
  cases rooted : volume.root medium with
  | error failure after =>
      rw [Access.beside_of_error rooted] at same
      refine ⟨[], Nat.zero_le _, nofun, spent, within, ?_⟩
      have failed : volume.lookup path medium = .error failure after := bind_of_error rooted
      rw [Access.beside_of_error failed, lookup, bind_of_error same]
  | ok root after =>
      rw [Access.beside_of_ok rooted] at same
      have goesOn : volume.lookup path medium = volume.follow path root (components path) after :=
        bind_of_ok rooted
      obtain ⟨passed, follows⟩ := volume.exists_follows path root (components path) after
      obtain ⟨more, withinRest, sameRest⟩ := follows.costs (requests + spent)
      refine ⟨passed, follows.length_le, ?_, spent + more, Nat.add_le_add within withinRest, ?_⟩
      · rintro _ _ ⟨⟩
        rw [goesOn]
        exact follows
      · rw [lookup, bind_of_ok same, sameRest, Access.beside, Access.beside, goesOn, Nat.add_assoc]

end

-----------------------------------------------------------------------------------------
-- All of it
-----------------------------------------------------------------------------------------

/-- Reading an image ends, whatever the image holds. The search through each of the two sequences
runs to an end though it has no bound of its own, and reads no more sectors than there are. Records
of a directory take up forty bytes at least, so there are not many in its bytes, and a lookup reads
no more directories than its path has names. Opening, the root, a directory and a lookup make no
more requests than that allows for; a metered source counts them.
-/
theorem reading_ends {supply : Supply σ} {source : Source σ} {image : Bytes} {ready : σ → Prop}
    (chosen : supply.toSource = .ok source) (serves : source.ServesToEnd image ready)
    : (∀ medium, ready medium →
        ∃ count ≤ image.length / sectorSize, ∀ read result,
          source.Scan VolumeStructure.decode VolumeStructure.endsSequence recognitionSector medium
              read result
            ↔ read = count
              ∧ result = source.sequenceFrom VolumeStructure.decode VolumeStructure.endsSequence
                  recognitionSector medium)
      ∧ (∀ (start : UInt32) medium, ready medium →
        ∃ count ≤ image.length / sectorSize, ∀ read result,
          source.Scan Descriptor.decode (fun descriptor => descriptor.kind = .terminating)
              start.toNat medium read result
            ↔ read = count
              ∧ result = source.sequenceFrom Descriptor.decode
                  (fun descriptor => descriptor.kind = .terminating) start.toNat medium)
      ∧ (∀ cursor identifier next, FileIdentifier.decode cursor = .ok identifier next
        → cursor.offset + 40 ≤ next.offset)
      ∧ (∀ size data, Directory.attempts size (Cursor.ofBytes data) ≤ (size + 39) / 40)
      ∧ Access.Costs ready (ofSupply supply.metered) (metered <$> ofSupply supply)
          (2 * (image.length / sectorSize) + 4)
      ∧ ∀ volume : Volume σ,
          Access.Costs (fun _ => True) volume.metered.root volume.root 1
          ∧ (∀ parent, Access.Costs (fun _ => True) (volume.metered.readDirectory parent)
              (volume.readDirectory parent) (readingBound parent))
          ∧ ∀ path requests medium,
              ∃ passed : List Entry, passed.length ≤ (components path).length
                ∧ (∀ root after, volume.root medium = .ok root after
                  → volume.Follows path root (components path) after passed
                      (volume.lookup path medium))
                ∧ ∃ spent ≤ 1 + readingsBound passed,
                    volume.metered.lookup path (requests, medium)
                      = (volume.lookup path).beside (requests + spent, medium) := by
  have small : Source.Reaches image recognitionSector := .inr (by decide)
  refine ⟨fun medium isReady => ?_, fun start medium isReady => ?_,
    fun cursor identifier next found => ?_, fun size data => Directory.attempts_le size _,
    ofSupply_costs chosen serves,
    fun volume => ⟨volume.root_costs, volume.readDirectory_costs, volume.lookup_follows⟩⟩
  · obtain ⟨count, within, scan⟩ := serves.exists_scan small isReady VolumeStructure.decode
      VolumeStructure.endsSequence
    exact ⟨count, Nat.le_trans within (Nat.sub_le _ _), fun _ _ => scan.iff⟩
  · obtain ⟨count, within, scan⟩ := serves.exists_scan (reaches_toNat image start) isReady
      Descriptor.decode fun descriptor => descriptor.kind = .terminating
    exact ⟨count, Nat.le_trans within (Nat.sub_le _ _), fun _ _ => scan.iff⟩
  · exact Directory.offset_add_leastSize_le (Directory.record_eq_ok_iff.mpr found)

/-- The bare image has 257 sectors, which bounds each of the two searches and all of opening. The
last of them is the anchor, so a search for the end of a main sequence that starts there runs into
the end of the image.
-/
theorem reading_ends_bare
    : let supply : Supply Unit := .direct bareSource
      supply.toSource = .ok bareSource
      ∧ bareSource.ServesToEnd bareImage (fun _ => True)
      ∧ (∃ count ≤ 257,
          bareSource.Scan VolumeStructure.decode VolumeStructure.endsSequence recognitionSector ()
            count
            (bareSource.sequenceFrom VolumeStructure.decode VolumeStructure.endsSequence
              recognitionSector ()))
      ∧ (∃ count ≤ 257,
          bareSource.Scan Descriptor.decode (fun descriptor => descriptor.kind = .terminating) 256
            () count
            (bareSource.sequenceFrom Descriptor.decode
              (fun descriptor => descriptor.kind = .terminating) 256 ()))
      ∧ ∃ spent ≤ 518,
          ofSupply supply.metered (0, ()) = (metered <$> ofSupply supply).beside (spent, ()) := by
  intro supply
  have serves : bareSource.ServesToEnd bareImage (fun _ => True) :=
    Source.ServesToEnd.ofContents ⟨bareImage.toArray⟩
  have sectors : bareImage.length / sectorSize = 257 := by
    have length : bareImage.length = 257 * sectorSize := length_sectorsWith bareHeads 257
    rw [length, Nat.mul_div_cancel _ (by decide)]
  have chosen : supply.toSource = .ok bareSource := rfl
  obtain ⟨recognition, main, -, -, opening, -⟩ := reading_ends chosen serves
  rw [sectors] at recognition main opening
  obtain ⟨spent, within, same⟩ := opening 0 () trivial
  rw [Nat.zero_add] at same
  obtain ⟨first, firstWithin, firstRuns⟩ := recognition () trivial
  obtain ⟨second, secondWithin, secondRuns⟩ := main 256 () trivial
  exact ⟨chosen, serves, ⟨first, firstWithin, (firstRuns _ _).mpr ⟨rfl, rfl⟩⟩,
    ⟨second, secondWithin, (secondRuns _ _).mpr ⟨rfl, rfl⟩⟩, spent, within, same⟩

end Volume

end DiscVolume
