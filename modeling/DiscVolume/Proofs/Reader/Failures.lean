import DiscVolume.Proofs.Cursor.Guards
import DiscVolume.Proofs.Reader.Lookup
import DiscVolume.Proofs.Reader.Verdicts

/-! Which failures come out of a visit. Where all images that are opened are served, a failure is a
verdict on the image or a misuse of the reader, but for what the reading of lines makes of limits
that no size can have and of closed streams. No fault of a medium is ever taken for a defect of the
image, and no decoder fails for a reason of its own.
-/

namespace DiscVolume.Visit

open Access Sequencing

/-- Whatever a new reader and its streams were asked for before, a call that fails condemns the
image or is a misuse, as long as all images that are opened are served; or else it asks for lines
that a stream is unfit to deliver. The image is condemned for its bytes, and never because its
medium says so. The guards that decoders do without would never have stopped them.
-/
theorem failure_isJustified {ready : σ → Prop}
    : Cursor.GuardsPass
      ∧ ∀ {medium : σ} {calls : List (Call σ)} {call : Call σ} {failure : Failure}
          {next : Visit σ},
        ready medium → (∀ each ∈ calls ++ [call], each.IsServed ready)
        → perform call (reached { medium } calls) = .error failure next
        → (reached { medium } calls).Expects call failure
          ∧ ∀ activity report, failure ≠ .malformed (.reportedByMedium activity report) := by
  refine ⟨Cursor.guardsPass, ?_⟩
  intro medium calls call failure next isReady served failed
  have sound := (IsSound.new isReady).reached
    (fun each member => served each (List.mem_append_left _ member))
  have ends := sound.perform_ends (served call (by simp))
  rw [failed] at ends
  exact ⟨ends.2, ends.2.ne_reported⟩

-----------------------------------------------------------------------------------------
-- A visit to a small tree
-----------------------------------------------------------------------------------------

/-- The small tree, delivered as it is. -/
def treeSupply : Supply Unit := .direct (.ofContents Extraction.treePlan.image)

/-- The root directory of the tree, under the name of the volume. -/
def treeRoot (name : String) : Entry := .root (Extraction.treePlan.entryAt 5) name

/-- The file that is called "e". -/
def treeFile (name : String) : Entry :=
  .child (Extraction.treePlan.entryAt 7) (.plain [101] 7) (treeRoot name)

/-- All that the root directory lists. -/
def treeEntries (name : String) : List Entry :=
  [.child (Extraction.treePlan.entryAt 6) (.plain [100] 6) (treeRoot name),
    .child (Extraction.treePlan.entryAt 7) (.plain [46, 46] 7) (treeRoot name), treeFile name]

/-- The tree is opened, its root directory is found and read, and the file in it is opened. -/
def treeCalls (name : String) : List (Call Unit) :=
  [.openImage treeSupply, .root, .readDirectory (treeRoot name), .openFile (treeFile name)]

theorem treeCalls_served (name : String) : ∀ call ∈ treeCalls name, call.IsServed fun _ => True := by
  simp only [treeCalls, List.forall_mem_cons]
  exact ⟨Call.isServed_ofContents _, trivial, trivial, trivial, by simp⟩

/-- The visit that these calls come to, with a stream over the contents of the file. -/
def treeVisit (volume : Volume Unit) : Visit Unit where
  reader := { volume := some volume }
  streams := [{ contents := .embedded [1, 2, 3] }]
  medium := ()

/-- The tree is opened as a volume with a name, in which the root directory is found and read. -/
structure IsTree (volume : Volume Unit) (name : String) : Prop where
  opened : Reader.openImage treeSupply ({}, ()) = .ok () ({ volume := some volume }, ())
  root_found : volume.root () = .ok (treeRoot name) ()
  root_read : volume.readDirectory (treeRoot name) () = .ok (treeEntries name) ()

set_option maxRecDepth 20000 in
/-- All records of the root directory have names. -/
theorem named_treeRecords
    : Volume.named (Extraction.treePlan.recordsAt 5)
      = [.plain [100] 6, .plain [46, 46] 7, .plain [101] 7] := by
  rfl

theorem exists_isTree : ∃ volume name, IsTree volume name := by
  have sound := Extraction.treePlan_isSound
  have planned := sound.root_mem
  have serves : (Source.ofContents Extraction.treePlan.image : Source Unit).ServesToEnd
      Extraction.treePlan.image.data.toList (fun _ => True) :=
    .ofContents Extraction.treePlan.image
  obtain ⟨volume, _, found, rootBlock, holds⟩ : ∃ volume after,
      Volume.ofSource (.ofContents Extraction.treePlan.image) () = .ok volume after ∧ _ :=
    sound.exists_volume serves trivial
  have servesVolume : volume.source.Serves _ _ :=
    Volume.source_of_ofSource found ▸ serves.toServes
  have rootHolds : volume.HoldsFileEntry Extraction.treePlan.image.data.toList
      volume.fileSet.rootDirectory.block.toNat (Extraction.treePlan.entryAt 5) := by
    rw [rootBlock]
    exact holds 5 planned
  have isDirectory : (treeRoot volume.logical.identifier).isDirectory = true := rfl
  obtain ⟨_, -, rooted⟩ : ∃ after, True ∧ volume.root () = .ok _ after :=
    Volume.root_eq_ok servesVolume trivial rootHolds
  obtain ⟨_, -, listed⟩ : ∃ after, True
      ∧ volume.readDirectory (treeRoot volume.logical.identifier) () = .ok _ after :=
    Volume.readDirectory_eq_ok_of_recorded servesVolume trivial Extraction.treePlan.entryAt
      isDirectory (sound.lists volume planned rfl isDirectory)
      (fun identifier member => holds _ (sound.leads 5 planned identifier member))
  rw [named_treeRecords] at listed
  have chosen : treeSupply.toSource = .ok (.ofContents Extraction.treePlan.image) := rfl
  have quiet : (Source.ofContents Extraction.treePlan.image).note .opening () = () := rfl
  refine ⟨volume, volume.logical.identifier, ?_, rooted, listed⟩
  rw [Reader.openImage_new chosen, quiet, blaming_eq_ok.mpr found]

theorem after_of_ok {visit next : Visit σ} {call : Call σ} {answer : Answer}
    (found : perform call visit = .ok answer next)
    : visit.after call = next := by
  rw [after, found]

theorem after_openImage {supply : Supply σ} {reader : Reader σ} {medium later : σ}
    (opened : Reader.openImage supply ({}, medium) = .ok () (reader, later))
    : after { medium } (.openImage supply) = { reader, medium := later } := by
  have found : onReader (Reader.openImage supply) ({ medium } : Visit σ)
      = .ok () { reader, medium := later } := by
    rw [onReader, opened]
  exact after_of_ok (bind_of_ok found)

namespace IsTree

variable {volume : Volume Unit} {name : String} (isTree : IsTree volume name)

include isTree

/-- Of the four calls, the first puts the volume into the reader and the last adds the stream. -/
theorem reached_eq : reached { medium := () } (treeCalls name) = treeVisit volume := by
  let opened : Visit Unit := { reader := { volume := some volume }, medium := () }
  have stays {α : Type} {step : Using Unit α} {value : α}
      (found : step (opened.reader, ()) = .ok value (opened.reader, ()))
      : onReader step opened = .ok value opened := by
    rw [onReader, found]
  have first : after { medium := () } (.openImage treeSupply) = opened :=
    after_openImage isTree.opened
  have second : opened.after .root = opened := by
    have found : Reader.root (opened.reader, ()) = .ok (treeRoot name) (opened.reader, ()) :=
      Reader.onOpened_eq_ok.mpr ⟨(), isTree.root_found, rfl⟩
    exact after_of_ok (bind_of_ok (stays found))
  have third : opened.after (.readDirectory (treeRoot name)) = opened := by
    have read : Reader.readDirectory (treeRoot name) (opened.reader, ())
        = .ok (treeEntries name) (opened.reader, ()) := by
      rw [Reader.readDirectory]
      exact Reader.onOpened_eq_ok.mpr ⟨(), isTree.root_read, rfl⟩
    exact after_of_ok (bind_of_ok (stays read))
  have fourth : opened.after (.openFile (treeFile name)) = treeVisit volume := by
    have isFile : (treeFile name).isDirectory = false := rfl
    have contents : volume.contentsOf (treeFile name) = .embedded [1, 2, 3] := rfl
    have found : Reader.openFile (treeFile name) (opened.reader, ())
        = .ok { contents := .embedded [1, 2, 3] } (opened.reader, ()) := by
      rw [Reader.openFile_eq_ok rfl isFile, contents]
    exact after_of_ok (bind_of_ok (stays found))
  rw [treeCalls, reached, List.foldl_cons, first, List.foldl_cons, second, List.foldl_cons, third,
    List.foldl_cons, fourth, List.foldl_nil]

/-- Below the file nothing can be found. -/
theorem lookup_through_file
    : volume.lookup "e/x" () = .error (.misused (.notADirectory "e")) () := by
  have names : Volume.components "e/x" = ["e", "x"] := by decide
  have sought : (treeEntries name).find? (·.name == "e") = some (treeFile name) := rfl
  rw [Volume.lookup, bind_of_ok isTree.root_found, names,
    Volume.follow_of_present rfl isTree.root_read sought, Volume.follow_of_leaf rfl]
  rfl

/-- Nothing is found under a name that the root directory does not list. -/
theorem lookup_missing : volume.lookup "x" () = .error (.misused (.noSuchPath "x")) () := by
  have names : Volume.components "x" = ["x"] := by decide
  have sought : (treeEntries name).find? (·.name == "x") = none := rfl
  rw [Volume.lookup, bind_of_ok isTree.root_found, names,
    Volume.follow_of_missing rfl isTree.root_read sought]

end IsTree

/-- A lookup fails as it does with the volume that is open. -/
theorem perform_lookup_error {visit : Visit σ} {volume : Volume σ} {path : String}
    {failure : Failure} {later : σ} (held : visit.reader.volume = some volume)
    (failed : volume.lookup path visit.medium = .error failure later)
    : perform (.lookup path) visit = .error failure { visit with medium := later } := by
  have looked : Reader.lookup path (visit.reader, visit.medium)
      = .error failure (visit.reader, later) := by
    rw [Reader.lookup, bind_of_ok (Reader.opened_of_held held), Reader.onMedium, failed]
  exact bind_of_error (onReader_of_error looked)

/-- Calls that fail with the tree open, and how: to read the file as a directory, to look for
something below it or under an unknown name, to move in front of the start of its contents, and to
read a line with a limit that no size can have.
-/
def treeFailures (name : String) : List (Call Unit × Failure) :=
  [(.readDirectory (treeFile name), .misused (.notADirectory "e")),
    (.lookup "e/x", .misused (.notADirectory "e")),
    (.lookup "x", .misused (.noSuchPath "x")),
    (.play 0 (.seek (.whole (-1)) 0), .misused .negativeOffset),
    (.play 0 (.readLine (some indexLimit)), .medium .countTooLarge)]

theorem IsTree.fails {volume : Volume Unit} {name : String} (isTree : IsTree volume name)
    : ∀ failing ∈ treeFailures name,
        ∃ next, perform failing.1 (treeVisit volume) = .error failing.2 next := by
  have below : perform (.lookup "e/x") (treeVisit volume) = _ :=
    perform_lookup_error rfl isTree.lookup_through_file
  have unknown : perform (.lookup "x") (treeVisit volume) = _ :=
    perform_lookup_error rfl isTree.lookup_missing
  simp only [treeFailures, List.forall_mem_cons]
  exact ⟨⟨_, rfl⟩, ⟨_, below⟩, ⟨_, unknown⟩, ⟨_, rfl⟩, ⟨_, rfl⟩, by simp⟩

/-- A file of three bytes, in which no image is found. -/
def tinyFile : ImageFile := { contents := ⟨#[1, 2, 3]⟩ }

def tinySupply : Supply ImageFile := .file .byteStream (ImageFile.source 3)

/-- The recognition sequence would start far behind the end of the tiny file. -/
theorem openImage_tiny
    : Reader.openImage tinySupply ({}, tinyFile)
      = .error (.truncated (.medium 2048 32768 0)) ({}, { tinyFile with position := 32768 }) := by
  have short : Volume.ofSource (ImageFile.source 3) tinyFile
      = .error (.truncated (.medium 2048 32768 0)) { tinyFile with position := 32768 } := by
    refine bind_of_error ?_
    rw [Source.sequenceFrom]
    exact bind_of_error (bind_of_error rfl)
  have blamed : blaming .opening (Volume.ofSource (ImageFile.source 3)) tinyFile
      = .error (.truncated (.medium 2048 32768 0)) { tinyFile with position := 32768 } :=
    blaming_of_error short (by simp)
  have chosen : tinySupply.toSource = .ok (ImageFile.source 3) := rfl
  have quiet : (ImageFile.source 3).note .opening tinyFile = tinyFile := rfl
  rw [Reader.openImage_new chosen, quiet, blamed]

/-- The calls on the tree fail as is expected, and so does opening the tiny file after the root was
asked for in vain.
-/
theorem failure_isJustified_tree
    : (∃ volume name, IsTree volume name
        ∧ reached { medium := () } (treeCalls name) = treeVisit volume
        ∧ ∀ failing ∈ treeFailures name,
            (∃ next, perform failing.1 (treeVisit volume) = .error failing.2 next)
            ∧ (treeVisit volume).Expects failing.1 failing.2)
      ∧ ∃ next,
          perform (.openImage tinySupply) (reached { medium := tinyFile } [.root])
            = .error (.truncated (.medium 2048 32768 0)) next
          ∧ (reached { medium := tinyFile } [.root]).Expects (.openImage tinySupply)
              (.truncated (.medium 2048 32768 0)) := by
  constructor
  · obtain ⟨volume, name, isTree⟩ := exists_isTree
    have reachedEq := isTree.reached_eq
    refine ⟨volume, name, isTree, reachedEq, ?_⟩
    intro failing member
    obtain ⟨next, failed⟩ := isTree.fails failing member
    refine ⟨⟨next, failed⟩, ?_⟩
    have notOpening : failing.1.IsServed fun _ => True := by
      simp only [treeFailures, List.mem_cons, List.not_mem_nil, or_false] at member
      rcases member with rfl | rfl | rfl | rfl | rfl <;> trivial
    have served : ∀ each ∈ treeCalls name ++ [failing.1], each.IsServed fun _ => True :=
      List.forall_mem_append.mpr ⟨treeCalls_served name, by simpa using notOpening⟩
    rw [← reachedEq] at failed ⊢
    exact (failure_isJustified.2 trivial served failed).1
  · have untouched : reached { medium := tinyFile } [.root] = { medium := tinyFile } := rfl
    have failed : perform (.openImage tinySupply) (reached { medium := tinyFile } [.root])
        = .error (.truncated (.medium 2048 32768 0))
            { medium := { tinyFile with position := 32768 } } := by
      rw [untouched, perform]
      refine bind_of_error ?_
      rw [onReader, openImage_tiny]
    have holds : tinyFile.Holds tinyFile.contents := ⟨rfl, rfl⟩
    have served : ∀ each ∈ [Call.root, Call.openImage tinySupply],
        each.IsServed (ImageFile.Holds tinyFile.contents) := by
      simp only [List.forall_mem_cons]
      exact ⟨trivial, Call.isServed_imageFile rfl (by decide) (by decide), by simp⟩
    exact ⟨_, failed, (failure_isJustified.2 holds served failed).1⟩

/-- Not all failures are justified. With the tree open, a line is asked for with a limit that no size
can have, and all lines are once the stream has been closed.
-/
theorem lines_unjustified
    : ∃ volume name, IsTree volume name
        ∧ reached { medium := () } (treeCalls name) = treeVisit volume
        ∧ (∀ call ∈ treeCalls name, call.IsServed fun _ => True)
        ∧ (∃ next, perform (.play 0 (.readLine (some indexLimit))) (treeVisit volume)
          = .error (.medium .countTooLarge) next)
        ∧ ¬ (Failure.medium .countTooLarge).IsJustified
            ((treeVisit volume).IsMisuse (.play 0 (.readLine (some indexLimit))))
        ∧ (∃ next, perform (.play 0 (.readLines none)) ((treeVisit volume).after (.play 0 .close))
          = .error (.medium .closedFile) next)
        ∧ ¬ (Failure.medium .closedFile).IsJustified
            (((treeVisit volume).after (.play 0 .close)).IsMisuse (.play 0 (.readLines none))) := by
  obtain ⟨volume, name, isTree⟩ := exists_isTree
  exact ⟨volume, name, isTree, isTree.reached_eq, treeCalls_served name, ⟨_, rfl⟩,
    Failure.not_isJustified_medium _ _, ⟨_, rfl⟩, Failure.not_isJustified_medium _ _⟩

end DiscVolume.Visit
