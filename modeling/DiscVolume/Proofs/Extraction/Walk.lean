import DiscVolume.Proofs.Extraction.Confinement
import DiscVolume.Proofs.Extraction.Tree

/-! The walk takes the entries level by level. As long as each of them can be visited, the queue
holds the rest of one level and the part of the next level that is below what has been visited.
-/

namespace DiscVolume.Extraction

-----------------------------------------------------------------------------------------
-- Steps in a row
-----------------------------------------------------------------------------------------

/-- A number of steps does some effects and leads from one stage to another. -/
def Takes (options : Options) (steps : Nat) (stage : Stage) (effects : List Effect) (next : Stage)
    : Prop :=
  ∀ limit, proceed options (steps + limit) stage
    = (effects ++ (proceed options limit next).1, (proceed options limit next).2)

variable {options : Options} {stage middle next : Stage}

theorem Takes.refl (stage : Stage) : Takes options 0 stage [] stage := by
  intro limit
  simp

theorem Takes.trans {steps more : Nat} {effects others : List Effect}
    (first : Takes options steps stage effects middle)
    (second : Takes options more middle others next)
    : Takes options (steps + more) stage (effects ++ others) next := by
  intro limit
  rw [Nat.add_assoc, first, second, List.append_assoc]

/-- One step of a walk is an advance. -/
theorem Takes.single {volume : Volume Drive} {drive : Drive} {queue : List Visit}
    {effects : List Effect}
    (advanced : advance options (.walking volume drive queue) = (effects, next))
    : Takes options 1 (.walking volume drive queue) effects next := by
  intro limit
  rw [Nat.add_comm, proceed, advanced]

theorem proceed_finished (options : Options) (limit status : Nat)
    : proceed options limit (.finished status) = ([], some status) := by
  cases limit <;> rfl

/-- A walk that has come to its end stays there. -/
theorem proceed_of_finished {limit status : Nat}
    (finished : (proceed options limit stage).2 = some status) (more : Nat)
    : proceed options (limit + more) stage = proceed options limit stage := by
  induction limit generalizing stage with
  | zero =>
      cases stage with
      | walking => cases finished
      | finished => simp only [proceed]
  | succ limit ih =>
      cases stage with
      | walking volume drive queue =>
          rw [Nat.succ_add]
          simp only [proceed] at finished ⊢
          rw [ih finished]
      | finished => simp only [proceed]

/-- The end of a walk does not depend on how many steps are allowed for. -/
theorem status_unique {first second status other : Nat}
    (finished : (proceed options first stage).2 = some status)
    (finishedOther : (proceed options second stage).2 = some other)
    : status = other := by
  have same : proceed options first stage = proceed options second stage := by
    rw [← proceed_of_finished finished second,
      ← proceed_of_finished finishedOther first, Nat.add_comm]
  rw [same, finishedOther] at finished
  exact (Option.some.inj finished).symm

/-- A walk has not come to its end while it still walks. -/
theorem status_eq_none_of_takes {steps limit : Nat} {effects : List Effect}
    {volume : Volume Drive} {drive : Drive} {queue : List Visit}
    (takes : Takes options steps stage effects (.walking volume drive queue))
    (early : limit ≤ steps)
    : (proceed options limit stage).2 = none := by
  cases finished : (proceed options limit stage).2 with
  | none => rfl
  | some status =>
      have later := takes 0
      rw [Nat.add_zero, ← Nat.add_sub_cancel' early, proceed_of_finished finished] at later
      rw [later] at finished
      cases finished

-----------------------------------------------------------------------------------------
-- Visits to the entries of the tree
-----------------------------------------------------------------------------------------

variable {data : ByteArray} {volume : Volume Drive} {drive : Drive}

/-- The visit to an entry at its place below the destination. -/
def Visit.of (options : Options) (entry : Entry) : Visit :=
  ⟨entry, outputPath options.destination entry⟩

/-- Visiting an entry does certain effects and leads to its children, as long as the image holds
the data.
-/
def CanVisit (options : Options) (data : ByteArray) (volume : Volume Drive) (entry : Entry)
    (effects : List Effect)
    : Prop :=
  ∀ drive : Drive, drive.Holds data → ∃ after : Drive, after.Holds data
    ∧ visit options volume drive (.of options entry)
      = ⟨effects, .ok ((safeChildren data volume entry).map (.of options)), after⟩

/-- Visiting an entry fails with a verdict on the image, as long as the image holds the data. -/
def CannotVisit (options : Options) (data : ByteArray) (volume : Volume Drive) (entry : Entry)
    : Prop :=
  ∀ drive : Drive, drive.Holds data → ∃ effects failure after, Failure.IsVerdict failure
    ∧ visit options volume drive (.of options entry) = ⟨effects, .error failure, after⟩

variable {doing : Entry → List Effect}

/-- The entries of a line are visited one after the other, and their children join the queue, by
induction on the line.
-/
theorem takes_line {line : List Entry} (rest : List Entry)
    (canVisit : ∀ entry ∈ line, CanVisit options data volume entry (doing entry))
    (holds : drive.Holds data)
    : ∃ after : Drive, after.Holds data
        ∧ Takes options line.length (.walking volume drive ((line ++ rest).map (.of options)))
            (line.flatMap doing)
            (.walking volume after
              ((rest ++ line.flatMap (safeChildren data volume)).map (.of options))) := by
  induction line generalizing rest drive with
  | nil =>
      refine ⟨drive, holds, ?_⟩
      simp only [List.nil_append, List.flatMap_nil, List.append_nil]
      exact .refl _
  | cons entry line ih =>
      obtain ⟨middle, holdsMiddle, visited⟩ := canVisit entry (.head _) drive holds
      obtain ⟨after, holdsAfter, others⟩ := ih (rest ++ safeChildren data volume entry)
        (fun other member => canVisit other (.tail _ member)) holdsMiddle
      refine ⟨after, holdsAfter, ?_⟩
      have first : Takes options 1
          (.walking volume drive ((entry :: line ++ rest).map (.of options))) (doing entry)
          (.walking volume middle
            ((line ++ (rest ++ safeChildren data volume entry)).map (.of options))) := by
        refine .single ?_
        simp only [List.cons_append, List.map_cons, advance, visited, List.map_append,
          List.append_assoc]
      have both := first.trans others
      simpa only [List.length_cons, Nat.add_comm 1, List.flatMap_cons, List.append_assoc] using both

/-- Level by level, the walk gets down to any depth, by induction on the depth. -/
theorem takes_levels {depth : Nat} {line : List Entry}
    (canVisit : ∀ entry ∈ levels (safeChildren data volume) depth line,
      CanVisit options data volume entry (doing entry))
    (holds : drive.Holds data)
    : ∃ after : Drive, after.Holds data
        ∧ Takes options (levels (safeChildren data volume) depth line).length
            (.walking volume drive (line.map (.of options)))
            ((levels (safeChildren data volume) depth line).flatMap doing)
            (.walking volume after
              ((level (safeChildren data volume) depth line).map (.of options))) := by
  induction depth generalizing line drive with
  | zero => exact ⟨drive, holds, .refl _⟩
  | succ depth ih =>
      obtain ⟨middle, holdsMiddle, first⟩ := takes_line []
        (fun entry member => canVisit entry (List.mem_append_left _ member)) holds
      obtain ⟨after, holdsAfter, others⟩ := ih
        (fun entry member => canVisit entry (List.mem_append_right _ member)) holdsMiddle
      refine ⟨after, holdsAfter, ?_⟩
      rw [List.append_nil, List.nil_append] at first
      simp only [levels, level, List.length_append, List.flatMap_append]
      exact first.trans others

/-- The walk is over when the queue is empty. -/
theorem takes_empty (options : Options) (volume : Volume Drive) (drive : Drive)
    : Takes options 1 (.walking volume drive []) [] (.finished 0) :=
  .single rfl

/-- The walk is over at the first entry that cannot be visited, and the verdict is reported. -/
theorem takes_failure {entry : Entry} (rest : List Entry)
    (cannotVisit : CannotVisit options data volume entry) (holds : drive.Holds data)
    : ∃ effects failure, Failure.IsVerdict failure
        ∧ Takes options 1 (.walking volume drive ((entry :: rest).map (.of options)))
            (effects ++ (giveUp options "read" failure.message).1) (.finished 1) := by
  obtain ⟨effects, failure, after, isVerdict, visited⟩ := cannotVisit drive holds
  refine ⟨effects, failure, isVerdict, .single ?_⟩
  simp only [List.map_cons, advance, visited]
  rfl

-----------------------------------------------------------------------------------------
-- What visits do
-----------------------------------------------------------------------------------------

/-- What a visit to an entry writes: a directory, or all the bytes of a file. -/
def written? (options : Options) (data : ByteArray) (volume : Volume Drive) (entry : Entry)
    : Option Effect :=
  if options.listsOnly then none
  else if entry.isDirectory then some (.makeDirectory (outputPath options.destination entry))
  else
    match found data (volume.readFile entry) with
    | .ok bytes => some (.writeFile (outputPath options.destination entry) bytes)
    | .error _ => none

/-- What a visit to an entry reports: that a directory was read, and each of its entries whose name
cannot be used.
-/
def reports (options : Options) (data : ByteArray) (volume : Volume Drive) (entry : Entry)
    : List Effect :=
  if entry.isDirectory then
    match found data (volume.readDirectory entry) with
    | .ok children =>
        logged options [.directoryRead children.length entry.path]
          ++ warningsAbout (.of options entry) children
    | .error _ => []
  else []

/-- What a visit to an entry does, provided that what it reads can be read. -/
def doings (options : Options) (data : ByteArray) (volume : Volume Drive) (entry : Entry)
    : List Effect :=
  .say ("/" ++ entry.path) :: (written? options data volume entry).toList
    ++ reports options data volume entry

/-- A directory is read alike on every drive that holds the data, and told of as it is read. -/
theorem readDirectory_of_holds {entry : Entry} {children : List Entry}
    (opens : Opens data volume drive)
    (listed : found data (volume.readDirectory entry) = .ok children) {later : Drive}
    (holds : later.Holds data)
    : ∃ after : Drive, after.Holds data ∧ after.notes = [.directoryRead children.length entry.path]
        ∧ volume.readDirectory entry { later with notes := [] } = .ok children after := by
  obtain ⟨_, listed⟩ := found_eq_ok.mp listed
  obtain ⟨isDirectory, _, recorded, -⟩ := Volume.readDirectory_ok_iff.mp listed
  have answers := (Volume.entriesFor_isSteady (opens.isSteady []) entry).answers_of_ok
    ⟨.fresh data, rfl⟩ recorded
  obtain ⟨after, ⟨holdsAfter, quiet⟩, answer⟩ := answers _ ⟨holds.withNotes [], rfl⟩
  have told : volume.source.note (.directoryRead children.length entry.path) after
      = { after with notes := [.directoryRead children.length entry.path] } := by
    rw [opens.source_eq]
    simp [Drive.source, Source.within, WindowedFile.source, quiet]
  refine ⟨_, holdsAfter.withNotes _, rfl, ?_⟩
  exact Volume.readDirectory_ok_iff.mpr ⟨isDirectory, after, answer, told.symm⟩

/-- A directory that can be read can be visited. -/
theorem canVisit_directory {entry : Entry} {children : List Entry}
    (opens : Opens data volume drive) (isDirectory : entry.isDirectory = true)
    (listed : found data (volume.readDirectory entry) = .ok children)
    : CanVisit options data volume entry (doings options data volume entry) := by
  intro later holds
  obtain ⟨after, holdsAfter, told, read⟩ := readDirectory_of_holds opens listed holds
  obtain ⟨_, fresh⟩ := found_eq_ok.mp listed
  have observed : observe options (volume.readDirectory entry) later
      = (.ok children, logged options [.directoryRead children.length entry.path], after) := by
    rw [observe_of_ok read, told]
  have areChildren := Volume.children_of_readDirectory fresh
  have visits : visitsTo (.of options entry) children
      = (safeChildren data volume entry).map (.of options) := by
    simp only [visitsTo, safeChildren, isDirectory, listed, if_true]
    refine List.map_congr_left (fun child member => ?_)
    obtain ⟨record, identifier, rfl, -⟩ := areChildren child (List.mem_of_mem_filter member)
    simp [Visit.of, outputPath, Entry.names, Entry.name]
  refine ⟨after, holdsAfter, ?_⟩
  have isDirectoryToo : (Visit.of options entry).entry.isDirectory = true := isDirectory
  have observedToo : observe options (volume.readDirectory (Visit.of options entry).entry) later
      = (.ok children, logged options [.directoryRead children.length entry.path], after) :=
    observed
  have writes : (written? options data volume entry).toList
      = if options.listsOnly then [] else [.makeDirectory (Visit.of options entry).path] := by
    simp only [written?, isDirectory, if_true, Visit.of]
    cases options.listsOnly <;> rfl
  simp only [visit, isDirectoryToo, if_true, visitDirectory, observedToo, visits, doings, writes,
    reports, isDirectory, listed, List.cons_append, List.append_assoc]
  rfl

/-- A directory that cannot be read cannot be visited. -/
theorem cannotVisit_directory {entry : Entry} {failure : Failure} (options : Options)
    (opens : Opens data volume drive) (isDirectory : entry.isDirectory = true)
    (unlisted : found data (volume.readDirectory entry) = .error failure)
    : CannotVisit options data volume entry := by
  intro later holds
  rcases observed : observe options (volume.readDirectory entry) later with ⟨outcome, log, after⟩
  have observedToo : observe options (volume.readDirectory (Visit.of options entry).entry) later
      = (outcome, log, after) := observed
  have isDirectoryToo : (Visit.of options entry).entry.isDirectory = true := isDirectory
  cases outcome with
  | error other =>
      obtain ⟨-, justified⟩ := (Volume.readDirectory_failsOnly opens.serves entry).of_error
        (holds.withNotes []) (observe_eq_error observed)
      have isVerdict : other.IsVerdict := by
        cases justified with
        | verdict isVerdict => exact isVerdict
        | misuse isMisuse => simp [isDirectory] at isMisuse
      simp only [visit, isDirectoryToo, if_true, visitDirectory, observedToo]
      exact ⟨_, other, _, isVerdict, rfl⟩
  | ok children =>
      -- What can be read here could be read at first.
      obtain ⟨-, _, recorded, -⟩ := Volume.readDirectory_ok_iff.mp (observe_eq_ok observed)
      have answers := (Volume.entriesFor_isSteady (opens.isSteady []) entry).answers_of_ok
        ⟨holds.withNotes [], rfl⟩ recorded
      obtain ⟨middle, -, fresh⟩ := answers (freshDrive data) ⟨.fresh data, rfl⟩
      have listed := Volume.readDirectory_ok_iff.mpr ⟨isDirectory, middle, fresh, rfl⟩
      rw [found_eq_ok.mpr ⟨_, listed⟩] at unlisted
      cases unlisted

/-- Nothing is read of a file that is only listed. -/
theorem canVisit_listed {entry : Entry} (listsOnly : options.listsOnly = true)
    (isFile : entry.isDirectory = false)
    : CanVisit options data volume entry (doings options data volume entry) := by
  intro later holds
  refine ⟨later, holds, ?_⟩
  have noChildren : safeChildren data volume entry = [] := by
    simp [safeChildren, isFile]
  simp [visit, visitFile, listsOnly, noChildren, doings, written?, reports, isFile, Visit.of]

-----------------------------------------------------------------------------------------
-- From the opening on
-----------------------------------------------------------------------------------------

/-- Extraction of an image that is opened goes on from its root directory. -/
theorem run_of_opens (opens : Opens data volume drive) (limit : Nat)
    : run options (.contents data) limit
      = (.say ("Opening " ++ options.image) :: logged options drive.notes
            ++ (enterRoot options volume drive).1
            ++ (proceed options limit (enterRoot options volume drive).2).1,
          (proceed options limit (enterRoot options volume drive).2).2) := by
  have observed : observe options (openImage data) (freshDrive data)
      = (.ok volume, logged options drive.notes, drive) :=
    observe_of_ok opens
  rw [run, start_of_opened observed]

/-- Looking for the root directory is told to nobody, and leaves the image as it was. -/
theorem observe_root (options : Options) (opens : Opens data volume drive)
    : ∃ after : Drive, after.Holds data
        ∧ observe options volume.root drive = (found data volume.root, [], after) := by
  have answers := answers_found (Volume.root_isSteady (opens.isSteady []))
  obtain ⟨after, ⟨holdsAfter, quiet⟩, answer⟩ := answers _ ⟨opens.holds.withNotes [], rfl⟩
  refine ⟨after, holdsAfter, ?_⟩
  cases outcome : found data volume.root with
  | ok root =>
      rw [outcome] at answer
      rw [observe_of_ok answer, quiet, logged_nil]
  | error failure =>
      rw [outcome] at answer
      rw [observe_of_error answer, quiet, logged_nil]

/-- The walk starts at the root directory. -/
theorem enterRoot_of_ok {root : Entry} (options : Options) (opens : Opens data volume drive)
    (isRoot : found data volume.root = .ok root)
    : ∃ after : Drive, after.Holds data
        ∧ enterRoot options volume drive
          = ([], .walking volume after ([root].map (.of options))) := by
  obtain ⟨after, holdsAfter, observed⟩ := observe_root options opens
  obtain ⟨_, fresh⟩ := found_eq_ok.mp isRoot
  obtain ⟨record, rfl, -⟩ := Volume.root_ok fresh
  rw [isRoot] at observed
  refine ⟨after, holdsAfter, ?_⟩
  simp only [enterRoot, observed]
  rfl

/-- There is no walk where the root directory is not found, only a report of the verdict. -/
theorem enterRoot_of_error {failure : Failure} (options : Options)
    (opens : Opens data volume drive)
    (noRoot : found data volume.root = .error failure)
    : failure.IsVerdict
      ∧ enterRoot options volume drive
        = ((giveUp options "read" failure.message).1, .finished 1) := by
  obtain ⟨after, -, observed⟩ := observe_root options opens
  obtain ⟨_, failed⟩ := found_eq_error.mp noRoot
  rw [noRoot] at observed
  refine ⟨((Volume.root_failsOnly opens.serves).of_error (.fresh data) failed).2, ?_⟩
  simp only [enterRoot, observed]
  rfl

/-- From the root the walk gets down to any depth, as long as all above it can be visited. -/
theorem takes_down {root : Entry} {depth : Nat} (opens : Opens data volume drive)
    (isRoot : found data volume.root = .ok root)
    (canVisit : ∀ entry ∈ levels (safeChildren data volume) depth [root],
      CanVisit options data volume entry (doing entry))
    : ∃ after : Drive, after.Holds data
        ∧ Takes options (levels (safeChildren data volume) depth [root]).length
            (enterRoot options volume drive).2
            ((levels (safeChildren data volume) depth [root]).flatMap doing)
            (.walking volume after
              ((level (safeChildren data volume) depth [root]).map (.of options))) := by
  obtain ⟨entered, holds, enterEq⟩ := enterRoot_of_ok options opens isRoot
  rw [enterEq]
  exact takes_levels canVisit holds

end DiscVolume.Extraction
