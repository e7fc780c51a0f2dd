import DiscVolume.Proofs.Extraction.Ending
import DiscVolume.Proofs.Extraction.Leavings
import DiscVolume.Proofs.Extraction.Order

/-! A finite tree that can be read is extracted as a whole: level by level, directories before what
is below them, and every file with all its bytes.
-/

namespace DiscVolume.Extraction

variable {options : Options} {data : ByteArray} {volume : Volume Drive} {drive : Drive}
variable {order : List Entry} {entry : Entry}

-----------------------------------------------------------------------------------------
-- What the visits do altogether
-----------------------------------------------------------------------------------------

/-- What a visit writes goes to the path of its entry. -/
theorem target?_of_written {effect : Effect}
    (isWritten : written? options data volume entry = some effect)
    : effect.target? = some (outputPath options.destination entry) := by
  unfold written? at isWritten
  split at isWritten
  · cases isWritten
  · split at isWritten
    · cases isWritten
      rfl
    · split at isWritten
      · cases isWritten
        rfl
      · cases isWritten

theorem areWarnings_reports : AreWarnings (reports options data volume entry) := by
  unfold reports
  split
  · split
    · exact areWarnings_logged.append areWarnings_warningsAbout
    · simp [AreWarnings]
  · simp [AreWarnings]

/-- Nothing is written on a visit but what is written to the path of its entry. -/
theorem written_of_mem_doings {effect : Effect} {target : String}
    (member : effect ∈ doings options data volume entry) (isTarget : effect.target? = some target)
    : written? options data volume entry = some effect
      ∧ target = outputPath options.destination entry := by
  have isWritten : written? options data volume entry = some effect := by
    rcases List.mem_append.mp member with first | report
    · rcases List.mem_cons.mp first with rfl | isWritten
      · cases isTarget
      · simpa using isWritten
    · have noTarget := areWarnings_reports.target? effect report
      simp [noTarget] at isTarget
  refine ⟨isWritten, ?_⟩
  have found := target?_of_written isWritten
  simpa [isTarget] using found

/-- The messages that go with a visit to an entry: those of the log, and one for each entry of a
directory whose name cannot be used.
-/
def messages (options : Options) (data : ByteArray) (volume : Volume Drive) (entry : Entry)
    : List String :=
  if entry.isDirectory then
    match found data (volume.readDirectory entry) with
    | .ok children =>
        Effect.warnings (logged options [.directoryRead children.length entry.path])
          ++ (children.filter fun child => !HostPath.isSafeName child.name).map fun child =>
            "Skipping unsafe name " ++ Text.quoted child.name ++ " in /" ++ entry.path
    | .error _ => []
  else []

theorem warnings_append (first second : List Effect)
    : Effect.warnings (first ++ second) = Effect.warnings first ++ Effect.warnings second :=
  List.filterMap_append

theorem warnings_reports (options : Options) (data : ByteArray) (volume : Volume Drive)
    (entry : Entry)
    : Effect.warnings (reports options data volume entry)
      = messages options data volume entry := by
  unfold reports messages
  cases entry.isDirectory with
  | false => rfl
  | true =>
      cases found data (volume.readDirectory entry) with
      | error failure => rfl
      | ok children =>
          have about : Effect.warnings (warningsAbout (.of options entry) children)
              = (children.filter fun child => !HostPath.isSafeName child.name).map fun child =>
                  "Skipping unsafe name " ++ Text.quoted child.name ++ " in /" ++ entry.path := by
            simp [Effect.warnings, warningsAbout, List.filterMap_map, Visit.of]
          simp only [if_true, warnings_append, about]

/-- A visit prints the path of its entry, and its messages are those of its reports. -/
theorem lines_doings (options : Options) (data : ByteArray) (volume : Volume Drive)
    (entry : Entry)
    : Effect.output (doings options data volume entry) = ["/" ++ entry.path]
      ∧ Effect.warnings (doings options data volume entry)
        = messages options data volume entry := by
  have silent : Effect.output (written? options data volume entry).toList = []
      ∧ Effect.warnings (written? options data volume entry).toList = [] := by
    cases isWritten : written? options data volume entry with
    | none => exact ⟨rfl, rfl⟩
    | some effect =>
        have isTarget := target?_of_written isWritten
        cases effect with
        | say | warn => cases isTarget
        | makeDirectory | writeFile => exact ⟨rfl, rfl⟩
  unfold doings
  rw [← List.singleton_append, List.append_assoc]
  constructor
  · rw [output_append, output_append, silent.1, areWarnings_reports.output_eq]
    rfl
  · rw [warnings_append, warnings_append, silent.2, warnings_reports]
    rfl

/-- Visits in some order print the paths in this order, and so are their messages. -/
theorem lines_flatMap_doings (options : Options) (data : ByteArray) (volume : Volume Drive)
    (order : List Entry)
    : Effect.output (order.flatMap (doings options data volume))
        = order.map (fun entry => "/" ++ entry.path)
      ∧ Effect.warnings (order.flatMap (doings options data volume))
        = order.flatMap (messages options data volume) := by
  constructor
  · rw [Effect.output, List.filterMap_flatMap, List.map_eq_flatMap]
    exact List.flatMap_congr (fun entry _ => (lines_doings options data volume entry).1)
  · rw [Effect.warnings, List.filterMap_flatMap]
    exact List.flatMap_congr (fun entry _ => (lines_doings options data volume entry).2)

/-- All that visits in some order do is done on one of them, after all that is done before. -/
theorem exists_visit {before after : List Effect} {effect : Effect}
    (split : order.flatMap (doings options data volume) = before ++ effect :: after)
    : ∃ front here back, order = front ++ here :: back ∧ effect ∈ doings options data volume here
        ∧ front.flatMap (doings options data volume) ⊆ before := by
  induction order generalizing before with
  | nil => simp at split
  | cons entry others ih =>
      rw [List.flatMap_cons] at split
      rcases mem_of_append_eq split with ⟨between, isHere⟩ | ⟨between, rfl, later⟩
      · exact ⟨[], entry, others, rfl, by simp [isHere], by simp⟩
      · obtain ⟨front, here, back, rfl, member, earlier⟩ := ih later
        refine ⟨entry :: front, here, back, rfl, member, ?_⟩
        rw [List.flatMap_cons]
        exact List.append_subset.mpr ⟨List.subset_append_left .., fun _ found =>
          List.mem_append_right _ (earlier found)⟩

/-- A finite tree that can be read is visited as a whole, level by level, one entry at a step. -/
theorem exists_run_eq (opens : Opens data volume drive) (readable : IsReadable data volume)
    (isAcyclic : IsAcyclic data volume)
    (copyable : options.listsOnly = false → IsCopyable options data volume)
    : ∃ order, IsLevelOrder data volume order
        ∧ ∀ limit, order.length < limit → run options (.contents data) limit
          = (.say ("Opening " ++ options.image) :: logged options drive.notes
              ++ order.flatMap (doings options data volume), some 0) := by
  obtain ⟨root, isRoot⟩ := readable.exists_root
  obtain ⟨depth, bottom⟩ := isAcyclic.exists_level_eq_nil isRoot
  obtain ⟨after, -, down⟩ := readable.takes_down opens copyable isRoot depth
  rw [bottom] at down
  have whole := down.trans (takes_empty options volume after)
  obtain ⟨entered, -, enterEq⟩ := enterRoot_of_ok options opens isRoot
  refine ⟨_, ⟨root, depth, isRoot, bottom, rfl⟩, fun limit late => ?_⟩
  obtain ⟨more, rfl⟩ := Nat.exists_eq_add_of_lt late
  rw [Nat.add_right_comm, run_of_opens opens, whole more, proceed_finished, enterEq]
  simp only [List.append_nil]

-----------------------------------------------------------------------------------------
-- What is extracted
-----------------------------------------------------------------------------------------

/-- The last file among some entries that is extracted to a path. The host refuses a directory and
a file in one place, so directories make no difference.
-/
def lastFile? (options : Options) (order : List Entry) (path : String) : Option Entry :=
  order.reverse.find? fun entry =>
    !entry.isDirectory && outputPath options.destination entry = path

/-- Effects extract entries in some order: each directory is made before anything is written below
it, and in the place of each file there are at last all bytes of the last file that goes there. The
tree of files that is left behind has them as far as it is below the current directory.
-/
structure Extracts (options : Options) (data : ByteArray) (volume : Volume Drive)
    (order : List Entry) (effects : List Effect) : Prop where
  makes : ∀ directory ∈ order, directory.isDirectory = true
    → .makeDirectory (outputPath options.destination directory) ∈ effects
  makes_first : ∀ directory ∈ order, ∀ entry, IsBelow data volume directory entry
    → ∀ before effect after, effects = before ++ effect :: after
    → effect.target? = some (outputPath options.destination entry)
    → .makeDirectory (outputPath options.destination directory) ∈ before
  leaves : ∀ file ∈ order, file.isDirectory = false
    → ∃ last bytes, lastFile? options order (outputPath options.destination file) = some last
        ∧ found data (volume.readFile last) = .ok bytes
        ∧ Effect.left? effects (outputPath options.destination file) = some bytes
        ∧ (HostPath.isAbsolute (outputPath options.destination file) = false
          → HostPath.isBelow (HostPath.place (outputPath options.destination file)) = true
          → (Effect.tree effects).get?
              (HostPath.ofPlace (HostPath.place (outputPath options.destination file)))
            = some (.file bytes))

variable {opening : List Effect}

/-- Visits make every directory, unless they only list. -/
theorem mem_doings_of_isDirectory (data : ByteArray) (volume : Volume Drive)
    (extracts : options.listsOnly = false) (isDirectory : entry.isDirectory = true)
    : .makeDirectory (outputPath options.destination entry) ∈ doings options data volume entry := by
  simp [doings, written?, extracts, isDirectory]

/-- What is below a directory is written after the directory is made. -/
theorem IsLevelOrder.makes_first {directory : Entry} {before after : List Effect} {effect : Effect}
    (inOrder : IsLevelOrder data volume order) (extracts : options.listsOnly = false)
    (noTarget : ∀ effect ∈ opening, effect.target? = none)
    (member : directory ∈ order) (below : IsBelow data volume directory entry)
    (split : opening ++ order.flatMap (doings options data volume) = before ++ effect :: after)
    (isTarget : effect.target? = some (outputPath options.destination entry))
    : .makeDirectory (outputPath options.destination directory) ∈ before := by
  rcases mem_of_append_eq split with ⟨between, rfl⟩ | ⟨between, rfl, visits⟩
  · have absent := noTarget effect (by simp)
    rw [absent] at isTarget
    cases isTarget
  obtain ⟨front, here, back, orderEq, isDone, earlier⟩ := exists_visit visits
  obtain ⟨-, sameTarget⟩ := written_of_mem_doings isDone isTarget
  -- Whatever goes to the same place has the same names, so it is below this directory too.
  have reached := below.isReached (inOrder.mem_iff.mp member)
  have reachedHere := inOrder.mem_iff.mp (by simp [orderEq] : here ∈ order)
  have samePlace : HostPath.isSame (outputPath options.destination entry)
      (outputPath options.destination here) = true := by
    simp [HostPath.isSame, sameTarget]
  have sameNames := reached.names_eq reachedHere samePlace
  obtain ⟨names, notEmpty, namesEq⟩ := below.exists_names
  obtain ⟨above, isEarlier, isDirectory, aboveEq⟩ :=
    inOrder.exists_above orderEq (sameNames.symm.trans namesEq) notEmpty
  have samePath : outputPath options.destination above
      = outputPath options.destination directory := by
    rw [outputPath, outputPath, aboveEq]
  have made := mem_doings_of_isDirectory data volume extracts isDirectory
  rw [samePath] at made
  exact List.mem_append_right _ (earlier (List.mem_flatMap.mpr ⟨above, isEarlier, made⟩))

/-- A visit to a file leaves its bytes in its place. -/
theorem left?_doings {file : Entry} {bytes : Bytes} (extracts : options.listsOnly = false)
    (isFile : file.isDirectory = false) (isRead : found data (volume.readFile file) = .ok bytes)
    : Effect.left? (doings options data volume file) (outputPath options.destination file)
      = some bytes := by
  have isWritten : written? options data volume file
      = some (.writeFile (outputPath options.destination file) bytes) := by
    simp [written?, extracts, isFile, isRead]
  have unreported : Effect.left? (reports options data volume file)
      (outputPath options.destination file) = none := by
    refine Effect.left?_eq_none_iff.mpr (fun target others member => ?_)
    cases areWarnings_reports.target? _ member
  rw [doings, Effect.left?_append, unreported, isWritten]
  simp [Effect.left?, HostPath.isSame]

/-- Where no more files are extracted to a path, visits leave nothing there. -/
theorem left?_doings_eq_none {path : String} {entries : List Entry}
    (elsewhere : ∀ entry ∈ entries, entry.isDirectory = false
      → HostPath.isSame (outputPath options.destination entry) path = false)
    : Effect.left? (entries.flatMap (doings options data volume)) path = none := by
  refine Effect.left?_eq_none_iff.mpr (fun target bytes member => ?_)
  obtain ⟨entry, isMember, isDone⟩ := List.mem_flatMap.mp member
  obtain ⟨isWritten, rfl⟩ := written_of_mem_doings isDone rfl
  refine elsewhere entry isMember ?_
  cases isDirectory : entry.isDirectory with
  | false => rfl
  | true =>
      unfold written? at isWritten
      simp [isDirectory] at isWritten

/-- Where a file is extracted to a path there is a last one, and no files with this path come behind
it.
-/
theorem exists_lastFile (options : Options) {file : Entry} (member : file ∈ order)
    (isFile : file.isDirectory = false)
    : ∃ last front back, lastFile? options order (outputPath options.destination file) = some last
        ∧ order = front ++ last :: back ∧ last.isDirectory = false
        ∧ outputPath options.destination last = outputPath options.destination file
        ∧ ∀ other ∈ back, other.isDirectory = false
          → outputPath options.destination other ≠ outputPath options.destination file := by
  have present : (lastFile? options order (outputPath options.destination file)).isSome := by
    refine List.find?_isSome.mpr ⟨file, List.mem_reverse.mpr member, ?_⟩
    simp [isFile]
  obtain ⟨last, isLast⟩ := Option.isSome_iff_exists.mp present
  obtain ⟨isMatch, back, front, reversed, others⟩ := List.find?_eq_some_iff_append.mp isLast
  simp only [Bool.and_eq_true, Bool.not_eq_true', decide_eq_true_eq] at isMatch
  refine ⟨last, front.reverse, back.reverse, isLast, ?_, isMatch.1, isMatch.2, ?_⟩
  · rw [← List.reverse_reverse order, reversed]
    simp
  · intro other isBehind otherIsFile
    have noMatch := others other (List.mem_reverse.mp isBehind)
    simpa [otherIsFile] using noMatch

/-- The last file in a place has its bytes left there. -/
theorem IsLevelOrder.leaves {file : Entry} (inOrder : IsLevelOrder data volume order)
    (extracts : options.listsOnly = false) (copyable : IsCopyable options data volume)
    (member : file ∈ order) (isFile : file.isDirectory = false)
    : ∃ last bytes, lastFile? options order (outputPath options.destination file) = some last
        ∧ found data (volume.readFile last) = .ok bytes
        ∧ Effect.left? (opening ++ order.flatMap (doings options data volume))
            (outputPath options.destination file)
          = some bytes := by
  obtain ⟨last, front, back, isLast, orderEq, lastIsFile, samePath, others⟩ :=
    exists_lastFile options member isFile
  have reached : ∀ other ∈ order, IsReached data volume other := fun _ => inOrder.mem_iff.mp
  have reachedLast := reached last (by simp [orderEq])
  obtain ⟨bytes, isRead⟩ := copyable.exists_bytes last reachedLast lastIsFile
  refine ⟨last, bytes, isLast, isRead, ?_⟩
  -- Files with other paths are in other places.
  have elsewhere : ∀ other ∈ back, other.isDirectory = false
      → HostPath.isSame (outputPath options.destination other)
          (outputPath options.destination last) = false := by
    intro other isBehind otherIsFile
    have differ := others other isBehind otherIsFile
    cases same : HostPath.isSame (outputPath options.destination other)
        (outputPath options.destination last) with
    | false => rfl
    | true =>
        have sameNames := (reached other (by simp [orderEq, isBehind])).names_eq reachedLast same
        have here : outputPath options.destination other = outputPath options.destination last := by
          rw [outputPath, outputPath, sameNames]
        exact absurd (here.trans samePath) differ
  rw [← samePath, orderEq, List.flatMap_append, List.flatMap_cons, Effect.left?_append,
    Effect.left?_append, Effect.left?_append, left?_doings extracts lastIsFile isRead,
    left?_doings_eq_none elsewhere]
  rfl

-----------------------------------------------------------------------------------------
-- The whole run
-----------------------------------------------------------------------------------------

/-- Extraction of a finite tree all of which can be read comes to a good end. Every entry that is
reached through safe names is visited, level by level; its path is printed, with a message for every
name in it that cannot be used. Unless it only lists, all directories and files are extracted.
-/
theorem run_extracts (opens : Opens data volume drive) (readable : IsReadable data volume)
    (isAcyclic : IsAcyclic data volume)
    (copyable : options.listsOnly = false → IsCopyable options data volume)
    : ∃ order effects, IsLevelOrder data volume order
        ∧ (∀ entry, entry ∈ order ↔ IsReached data volume entry)
        ∧ (∀ limit, order.length < limit → run options (.contents data) limit = (effects, some 0))
        ∧ Effect.output effects
          = ("Opening " ++ options.image) :: order.map (fun entry => "/" ++ entry.path)
        ∧ Effect.warnings effects
          = Effect.warnings (logged options drive.notes)
            ++ order.flatMap (messages options data volume)
        ∧ (options.listsOnly = false → Extracts options data volume order effects) := by
  obtain ⟨order, inOrder, runEq⟩ := exists_run_eq opens readable isAcyclic copyable
  obtain ⟨outputEq, warningsEq⟩ := lines_flatMap_doings options data volume order
  have quiet : AreWarnings (logged options drive.notes) := areWarnings_logged
  have noTarget : ∀ effect ∈ Effect.say ("Opening " ++ options.image)
      :: logged options drive.notes, effect.target? = none := by
    intro effect member
    rcases List.mem_cons.mp member with rfl | member
    · rfl
    · exact quiet.target? effect member
  refine ⟨order, _, inOrder, fun _ => inOrder.mem_iff, runEq, ?_, ?_, fun extracts => ?_⟩
  · rw [List.cons_append, ← List.singleton_append, output_append, output_append, quiet.output_eq,
      outputEq]
    rfl
  · rw [List.cons_append, ← List.singleton_append, warnings_append, warnings_append, warningsEq]
    rfl
  · constructor
    · intro directory member isDirectory
      exact List.mem_append_right _ (List.mem_flatMap.mpr
        ⟨directory, member, mem_doings_of_isDirectory data volume extracts isDirectory⟩)
    · intro directory member entry below before effect after split isTarget
      exact inOrder.makes_first extracts noTarget member below split isTarget
    · intro file member isFile
      obtain ⟨last, bytes, isLast, isRead, left⟩ :=
        inOrder.leaves extracts (copyable extracts) member isFile
      exact ⟨last, bytes, isLast, isRead, left, fun isRelative below =>
        Effect.get?_tree_of_left? isRelative below left⟩

-----------------------------------------------------------------------------------------
-- The small tree
-----------------------------------------------------------------------------------------

/-- The options to extract the tree to a directory of its own. -/
def treeOptions : Options := { destination := "out", image := "tree" }

/-- The directories of the tree, and the file in a directory of the tree. -/
def treeRoot (volume : Volume Drive) : Entry :=
  .root (treePlan.entryAt 5) volume.logical.identifier

def treeInner (volume : Volume Drive) : Entry :=
  .child (treePlan.entryAt 6) (.plain [100] 6) (treeRoot volume)

def treeFile (identifier : FileIdentifier) (directory : Entry) : Entry :=
  .child (treePlan.entryAt 7) identifier directory

/-- All entries of the tree, level by level. -/
def treeEntries (volume : Volume Drive) : List Entry :=
  [treeRoot volume, treeInner volume, treeFile (.plain [101] 7) (treeRoot volume),
    treeFile (.plain [97] 7) (treeInner volume)]

theorem isLevelOrder_treeEntries (isOpen : treePlan.IsOpen volume drive)
    : IsLevelOrder treePlan.image volume (treeEntries volume) := by
  have ofRoot : safeChildren treePlan.image volume (treeRoot volume)
      = [treeInner volume, treeFile (.plain [101] 7) (treeRoot volume)] :=
    isOpen.safeChildren_eq treePlan_isSound treePlan_isSound.root_mem rfl rfl
  have ofInner : safeChildren treePlan.image volume (treeInner volume)
      = [treeFile (.plain [97] 7) (treeInner volume)] :=
    isOpen.safeChildren_eq treePlan_isSound (by decide : 6 ∈ treePlan.blocks) rfl rfl
  have ofFile (identifier : FileIdentifier) (directory : Entry)
      : safeChildren treePlan.image volume (treeFile identifier directory) = [] := rfl
  refine ⟨treeRoot volume, 3, isOpen.found_root treePlan_isSound, ?_, ?_⟩
  · simp [level, ofRoot, ofInner, ofFile]
  · simp [levels, treeEntries, ofRoot, ofInner, ofFile]

/-- Whatever is extracted is put below another place than that of the image. -/
theorem isCopyable_tree (isOpen : treePlan.IsOpen volume drive)
    : IsCopyable treeOptions treePlan.image volume where
  exists_bytes _ reached isFile := ⟨_, isOpen.found_readFile treePlan_isSound reached isFile⟩
  isApart file reached _ := by
    have place : HostPath.place (outputPath treeOptions.destination file)
        = HostPath.place treeOptions.destination ++ file.names :=
      HostPath.place_foldl_join reached.areComponents _
    have destination : HostPath.place treeOptions.destination = ["out"] := by decide
    have image : HostPath.place treeOptions.image = ["tree"] := by decide
    simp [HostPath.isSame, place, destination, image]

/-- The tree is extracted as a whole. -/
theorem run_extracts_tree
    : ∃ effects, (∀ limit, 4 < limit
          → run treeOptions (.contents treePlan.image) limit = (effects, some 0))
        ∧ Effect.output effects = ["Opening tree", "/", "/d", "/e", "/d/a"]
        ∧ Effect.left? effects "out/d/a" = some [1, 2, 3] := by
  obtain ⟨volume, drive, isOpen⟩ := treePlan_isSound.exists_isOpen
  obtain ⟨order, effects, inOrder, isReached, runEq, outputEq, -, extracts⟩ :=
    run_extracts isOpen.opens (isOpen.isReadable treePlan_isSound) (treePlan_isAcyclic isOpen)
      (fun _ => isCopyable_tree isOpen)
  obtain rfl := inOrder.unique (isLevelOrder_treeEntries isOpen)
  refine ⟨effects, runEq, outputEq, ?_⟩
  obtain ⟨last, bytes, isLast, isRead, left, -⟩ := (extracts rfl).leaves
    (treeFile (.plain [97] 7) (treeInner volume)) (by simp [treeEntries]) rfl
  have contents : last.isDirectory = false ∧ last.record.data = .embedded [1, 2, 3] := by
    cases isLast
    exact ⟨rfl, rfl⟩
  rw [found_readFile contents.1 contents.2] at isRead
  cases isRead
  exact left

end DiscVolume.Extraction
