import DiscVolume.Proofs.Extraction.Completeness
import DiscVolume.Proofs.FileStream.Verdicts

/-! Listing an image and extracting it. Both walk through the same visits as long as both go on; a
visit that fails when it lists fails when it extracts as well, but to extract is to read the files
too, so that extracting may stop earlier.
-/

namespace DiscVolume

open Access Sequencing

/-- Copying leaves its input as reading and writing do, and fails as reading does or where a block
does not come in full. The induction is on what is left.
-/
theorem copyBlocks_ends {read : Int → Access τ Bytes} {write : Bytes → τ → τ} {blockSize : Int}
    {kept : τ → Prop} {allowed : Failure → Prop} (positive : 0 < blockSize)
    (reads : ∀ count, (read count).FailsOnly kept allowed)
    (writes : ∀ data state, kept state → kept (write data state))
    (short : ∀ truncation, allowed (.truncated truncation)) (left : Nat) {input : τ}
    (isKept : kept input)
    : kept (copyBlocks read write blockSize left input).input
      ∧ ∀ failure ∈ (copyBlocks read write blockSize left input).failure, allowed failure := by
  induction left using Nat.strongRecOn generalizing input with
  | ind left ih =>
      rcases Nat.eq_zero_or_pos left with rfl | more
      · rw [copyBlocks, if_pos rfl]
        refine ⟨isKept, fun other same => ?_⟩
        cases same
      · have ends := reads (min (left : Int) blockSize) input isKept
        cases came : read (min (left : Int) blockSize) input with
        | error failure after =>
            rw [came] at ends
            rw [copyBlocks_of_error positive more came]
            refine ⟨ends.1, fun other same => ?_⟩
            cases same
            exact ends.2
        | ok data after =>
            rw [came] at ends
            by_cases full : (data.length : Int) = min (left : Int) blockSize
            · rw [copyBlocks_of_full positive more full came]
              exact ih _ (by omega) (writes data after ends)
            · rw [copyBlocks_of_short positive more full came]
              refine ⟨ends, fun other same => ?_⟩
              cases same
              exact short _

namespace Extraction

variable {options : Options} {data : ByteArray} {volume : Volume Drive} {drive : Drive}
variable {entry : Entry}

-----------------------------------------------------------------------------------------
-- Visits to files
-----------------------------------------------------------------------------------------

/-- To copy a file that does not take the place of the image leaves the image as it is, and fails
with a verdict on it if at all.
-/
theorem copyOut_ends {contents : Contents Drive} {path : String}
    (isServed : contents.IsServed (Drive.Holds data)) (holds : drive.Holds data)
    (apart : HostPath.isSame path options.image = false)
    : (copyOut options { contents } drive path).drive.Holds data
      ∧ ((copyOut options { contents } drive path).outcome = .ok []
        ∨ ∃ failure, failure.IsVerdict
          ∧ (copyOut options { contents } drive path).outcome = .error failure) := by
  have positive : 0 < blockSize := by decide
  have regime : FileStream.Regime (FileStream.IsOn contents true) (Drive.Holds data)
    (FileStream.Fails true) := FileStream.regime_of_isServed isServed
  have start : Beside (FileStream.IsOn contents true) (Drive.Holds data)
      (({ contents } : FileStream Drive), drive) := ⟨⟨rfl, rfl⟩, holds⟩
  obtain ⟨⟨-, holdsAfter⟩, fails⟩ := copyBlocks_ends positive
    (fun count => regime.read (some count)) (fun _ state beside => beside)
    (fun truncation => .verdict (.truncated truncation)) contents.length.toNat start
  simp only [copyOut, apart, Bool.false_eq_true, if_false]
  refine ⟨holdsAfter, ?_⟩
  split
  · next failure failed =>
      refine .inr ⟨failure, ?_, rfl⟩
      cases fails failure failed with
      | verdict isVerdict => exact isVerdict
      | misuse isMisuse => cases isMisuse.1
  · exact .inl rfl

/-- A visit to a file leads to no other visits, or fails with a verdict on the image. The image
stays as it is unless the file takes its place.
-/
theorem visit_file_ends (opens : Opens data volume drive) (isFile : entry.isDirectory = false)
    {later : Drive} (holds : later.Holds data)
    (apart : options.listsOnly = false
      → HostPath.isSame (outputPath options.destination entry) options.image = false)
    : (∃ effects after, after.Holds data
        ∧ visit options volume later (.of options entry)
          = ⟨effects, .ok ((safeChildren data volume entry).map (.of options)), after⟩)
      ∨ ∃ effects failure after, failure.IsVerdict
          ∧ visit options volume later (.of options entry) = ⟨effects, .error failure, after⟩ := by
  cases extracts : options.listsOnly with
  | true =>
      have canVisit : CanVisit options data volume entry (doings options data volume entry) :=
        canVisit_listed extracts isFile
      obtain ⟨after, holdsAfter, visited⟩ := canVisit later holds
      exact .inl ⟨_, after, holdsAfter, visited⟩
  | false =>
      have noChildren : safeChildren data volume entry = [] := by
        simp [safeChildren, isFile]
      have isServed := volume.contentsOf_isServed opens.serves.toServes entry
      obtain ⟨holdsAfter, ends⟩ := copyOut_ends isServed holds (apart extracts)
      have visited : visit options volume later (.of options entry)
          = ⟨.say ("/" ++ entry.path) :: (copyOut options { contents := volume.contentsOf entry }
                later (outputPath options.destination entry)).effects,
              (copyOut options { contents := volume.contentsOf entry } later
                (outputPath options.destination entry)).outcome,
              (copyOut options { contents := volume.contentsOf entry } later
                (outputPath options.destination entry)).drive⟩ := by
        simp [visit, Visit.of, isFile, visitFile, extracts, Volume.openFile_ok isFile]
      rw [visited]
      rcases ends with whole | ⟨failure, isVerdict, failed⟩
      · rw [whole, noChildren]
        exact .inl ⟨_, _, holdsAfter, rfl⟩
      · rw [failed]
        exact .inr ⟨_, failure, _, isVerdict, rfl⟩

/-- A visit to an entry leads to visits to its children, or fails with a verdict on the image. -/
theorem visit_ends (opens : Opens data volume drive) {later : Drive} (holds : later.Holds data)
    (apart : options.listsOnly = false → entry.isDirectory = false
      → HostPath.isSame (outputPath options.destination entry) options.image = false)
    : (∃ effects after, after.Holds data
        ∧ visit options volume later (.of options entry)
          = ⟨effects, .ok ((safeChildren data volume entry).map (.of options)), after⟩)
      ∨ ∃ effects failure after, failure.IsVerdict
          ∧ visit options volume later (.of options entry) = ⟨effects, .error failure, after⟩ := by
  cases isDirectory : entry.isDirectory with
  | true =>
      cases listed : found data (volume.readDirectory entry) with
      | ok children =>
          obtain ⟨after, holdsAfter, visited⟩ :=
            canVisit_directory opens isDirectory listed later holds
          exact .inl ⟨_, after, holdsAfter, visited⟩
      | error failure =>
          exact .inr (cannotVisit_directory options opens isDirectory listed later holds)
  | false =>
      exact visit_file_ends opens isDirectory holds fun extracts => apart extracts isDirectory

-----------------------------------------------------------------------------------------
-- Failures of a walk
-----------------------------------------------------------------------------------------

/-- A walk through a queue of visits raises a failure. -/
inductive Raises (options : Options) (volume : Volume Drive)
    : Drive → List Visit → Failure → Prop
  | first {drive : Drive} {here : Visit} {queue : List Visit} {failure : Failure}
      (failed : (visit options volume drive here).outcome = .error failure)
      : Raises options volume drive (here :: queue) failure
  | later {drive : Drive} {here : Visit} {queue visits : List Visit} {failure : Failure}
      (visited : (visit options volume drive here).outcome = .ok visits)
      (raises : Raises options volume (visit options volume drive here).drive (queue ++ visits)
        failure)
      : Raises options volume drive (here :: queue) failure

/-- Behind a visit that succeeds a failure is raised as it is by the visits that are left. -/
theorem raises_iff_of_ok {here : Visit} {effects : List Effect} {visits : List Visit}
    {after : Drive} (visited : visit options volume drive here = ⟨effects, .ok visits, after⟩)
    (queue : List Visit) (failure : Failure)
    : Raises options volume drive (here :: queue) failure
      ↔ Raises options volume after (queue ++ visits) failure := by
  constructor
  · intro raises
    cases raises with
    | first failed =>
        rw [visited] at failed
        cases failed
    | later succeeded raises =>
        rw [visited] at succeeded raises
        cases succeeded
        exact raises
  · intro raises
    refine .later (by rw [visited]) ?_
    rw [visited]
    exact raises

/-- A walk raises one failure at most. -/
theorem Raises.unique {queue : List Visit} {failure other : Failure}
    (raises : Raises options volume drive queue failure)
    (raisesOther : Raises options volume drive queue other)
    : failure = other := by
  induction raises with
  | first failed =>
      cases raisesOther with
      | first failedOther => exact Except.error.inj (failed.symm.trans failedOther)
      | later visited _ => cases failed.symm.trans visited
  | later visited _ ih =>
      cases raisesOther with
      | first failed => cases visited.symm.trans failed
      | later visitedOther raisesOther =>
          cases visited.symm.trans visitedOther
          exact ih raisesOther

/-- How a walk from an open volume raises a failure, if only as it looks for the root directory. -/
inductive RaisesFrom (options : Options) (volume : Volume Drive) (drive : Drive)
    (failure : Failure) : Prop
  | root {log : List Effect} {after : Drive}
      (observed : observe options volume.root drive = (.error failure, log, after))
  | below {root : Entry} {log : List Effect} {after : Drive}
      (observed : observe options volume.root drive = (.ok root, log, after))
      (raises : Raises options volume after [⟨root, options.destination⟩] failure)

theorem RaisesFrom.unique {failure other : Failure}
    (raises : RaisesFrom options volume drive failure)
    (raisesOther : RaisesFrom options volume drive other)
    : failure = other := by
  cases raises with
  | root observed =>
      cases raisesOther with
      | root observedOther =>
          cases observed.symm.trans observedOther
          rfl
      | below observedOther _ => cases observed.symm.trans observedOther
  | below observed raises =>
      cases raisesOther with
      | root observedOther => cases observed.symm.trans observedOther
      | below observedOther raisesOther =>
          cases observed.symm.trans observedOther
          exact raises.unique raisesOther

theorem proceed_empty (options : Options) (volume : Volume Drive) (drive : Drive) (limit : Nat)
    : proceed options (limit + 1) (.walking volume drive []) = ([], some 0) := by
  simp only [proceed, advance, proceed_finished, List.append_nil]

/-- Behind a visit the walk goes on with the visits that it leads to. -/
theorem proceed_of_ok {here : Visit} {effects : List Effect} {visits : List Visit} {after : Drive}
    (visited : visit options volume drive here = ⟨effects, .ok visits, after⟩)
    (queue : List Visit) (limit : Nat)
    : proceed options (limit + 1) (.walking volume drive (here :: queue))
      = (effects ++ (proceed options limit (.walking volume after (queue ++ visits))).1,
          (proceed options limit (.walking volume after (queue ++ visits))).2) := by
  simp only [proceed, advance, visited]

/-- A visit that fails ends the walk with a report. -/
theorem proceed_of_error {here : Visit} {effects : List Effect} {failure : Failure}
    {after : Drive} (visited : visit options volume drive here = ⟨effects, .error failure, after⟩)
    (queue : List Visit) (limit : Nat)
    : proceed options (limit + 1) (.walking volume drive (here :: queue))
      = (effects ++ (giveUp options "read" failure.message).1, some 1) := by
  simp only [proceed, advance, visited, giveUp, proceed_finished, List.append_nil]

/-- Effects that write nothing to the place of the image. -/
def SparesImage (options : Options) (effects : List Effect) : Prop :=
  ∀ path bytes, .writeFile path bytes ∈ effects → HostPath.isSame path options.image = false

theorem SparesImage.behind {first others : List Effect}
    (spares : SparesImage options (first ++ others))
    : SparesImage options others :=
  fun path bytes member => spares path bytes (List.mem_append_right first member)

/-- A file that is extracted is written, whatever comes of reading it. -/
theorem exists_writeFile (volume : Volume Drive) (drive : Drive)
    (extracts : options.listsOnly = false) (isFile : entry.isDirectory = false)
    : ∃ bytes, .writeFile (outputPath options.destination entry) bytes
        ∈ (visit options volume drive (.of options entry)).effects := by
  simp [visit, Visit.of, isFile, visitFile, extracts, Volume.openFile_ok isFile, copyOut]

/-- Where a walk has written nothing to the place of the image, its first visit has not. -/
theorem isApart_of_visit {effects : List Effect} (spares : SparesImage options effects)
    (done : (visit options volume drive (.of options entry)).effects <+: effects)
    (extracts : options.listsOnly = false) (isFile : entry.isDirectory = false)
    : HostPath.isSame (outputPath options.destination entry) options.image = false := by
  obtain ⟨bytes, written⟩ := exists_writeFile volume drive extracts isFile
  exact spares _ bytes (done.subset written)

/-- What a first visit does comes first of all that the walk does. -/
theorem visit_prefix_of_proceed {here : Visit} {queue : List Visit} {limit : Nat}
    {effects : List Effect} {status : Option Nat}
    (ended : proceed options (limit + 1) (.walking volume drive (here :: queue))
      = (effects, status))
    : (visit options volume drive here).effects <+: effects := by
  have visited : visit options volume drive here = ⟨(visit options volume drive here).effects,
    (visit options volume drive here).outcome, (visit options volume drive here).drive⟩ := rfl
  cases outcome : (visit options volume drive here).outcome with
  | ok visits =>
      rw [outcome] at visited
      rw [proceed_of_ok visited] at ended
      cases ended
      exact List.prefix_append _ _
  | error failure =>
      rw [outcome] at visited
      rw [proceed_of_error visited] at ended
      cases ended
      exact List.prefix_append _ _

/-- A walk that has ended has status 0 and has raised nothing, or status 1 and has raised a verdict
on the image. By induction on the number of steps.
-/
theorem walk_ends (opens : Opens data volume drive) {later : Drive} (holds : later.Holds data)
    {limit status : Nat} {entries : List Entry} {effects : List Effect}
    (ended : proceed options limit (.walking volume later (entries.map (.of options)))
      = (effects, some status))
    (spares : options.listsOnly = false → SparesImage options effects)
    : status = 0 ∧ (∀ failure, ¬ Raises options volume later (entries.map (.of options)) failure)
      ∨ status = 1 ∧ ∃ failure, failure.IsVerdict
          ∧ Raises options volume later (entries.map (.of options)) failure := by
  induction limit generalizing later entries effects with
  | zero => cases ended
  | succ limit ih =>
      cases entries with
      | nil =>
          rw [List.map_nil, proceed_empty] at ended
          cases ended
          exact .inl ⟨rfl, fun failure raises => nomatch raises⟩
      | cons entry others =>
          rw [List.map_cons] at ended ⊢
          have aside : options.listsOnly = false → entry.isDirectory = false
              → HostPath.isSame (outputPath options.destination entry) options.image = false :=
            fun extracts =>
              isApart_of_visit (spares extracts) (visit_prefix_of_proceed ended) extracts
          rcases visit_ends opens holds aside with
            ⟨effects, after, holdsAfter, visited⟩ | ⟨effects, failure, after, isVerdict, visited⟩
          · rw [proceed_of_ok visited, ← List.map_append] at ended
            obtain ⟨rfl, goesOn⟩ := Prod.mk.inj ended
            have behind := raises_iff_of_ok visited (others.map (.of options))
            rw [← List.map_append] at behind
            simp only [behind]
            exact ih holdsAfter (Prod.ext rfl goesOn) fun extracts => (spares extracts).behind
          · rw [proceed_of_error visited] at ended
            cases ended
            exact .inr ⟨rfl, failure, isVerdict, .first (by rw [visited])⟩

-----------------------------------------------------------------------------------------
-- What extracting tells
-----------------------------------------------------------------------------------------

/-- What the warning about a name that cannot be used starts with. -/
def skipNotice : String := "Skipping unsafe name"

/-- The warnings about names that cannot be used. -/
def skips (effects : List Effect) : List String :=
  (Effect.warnings effects).filter fun line => skipNotice.toList.isPrefixOf line.toList

theorem skips_append (first second : List Effect)
    : skips (first ++ second) = skips first ++ skips second := by
  rw [skips, warnings_append, List.filter_append]
  rfl

/-- Nothing that is logged is taken for such a warning. -/
theorem skips_logged (options : Options) (notes : Notes) : skips (logged options notes) = [] := by
  have apart (text : String)
      : skipNotice.toList.isPrefixOf ("DEBUG pyvcdkit.udfreader: " ++ text).toList = false := by
    rw [String.toList_append]
    rfl
  rw [skips, List.filter_eq_nil_iff]
  intro line member
  obtain ⟨effect, isLogged, told⟩ := List.mem_filterMap.mp member
  unfold logged at isLogged
  split at isLogged
  · obtain ⟨note, -, rfl⟩ := List.mem_map.mp isLogged
    cases told
    rw [apart]
    exact Bool.false_ne_true
  all_goals cases isLogged

theorem skips_giveUp (options : Options) (doing report : String)
    : skips (giveUp options doing report).1 = [] := by
  have apart : skipNotice.toList.isPrefixOf
      ("Could not " ++ doing ++ " " ++ options.image ++ ": " ++ report).toList = false := by
    simp only [String.append_assoc]
    rw [String.toList_append]
    rfl
  change List.filter _ ["Could not " ++ doing ++ " " ++ options.image ++ ": " ++ report] = []
  rw [List.filter_cons_of_neg (by rw [apart]; exact Bool.false_ne_true), List.filter_nil]

/-- What an observed step tells is logged of some notes. -/
theorem exists_logged {step : Access Drive α} {outcome : Except Failure α} {log : List Effect}
    {after : Drive} (observed : observe options step drive = (outcome, log, after))
    : ∃ notes, log = logged options notes := by
  unfold observe at observed
  split at observed
  all_goals
    cases observed
    exact ⟨_, rfl⟩

/-- A visit to a file skips no name. -/
theorem skips_visit_file {here : Visit} (isFile : here.entry.isDirectory = false)
    : skips (visit options volume drive here).effects = [] := by
  have visited : (visit options volume drive here).effects
      = .say ("/" ++ here.entry.path) :: (visitFile options volume drive here).effects := by
    rw [visit, if_neg (by simp [isFile])]
  rw [visited, visitFile]
  split
  · rfl
  · split <;> rfl

/-- A visit that fails skips no name. -/
theorem skips_visit_error {here : Visit} {failure : Failure}
    (failed : (visit options volume drive here).outcome = .error failure)
    : skips (visit options volume drive here).effects = [] := by
  cases isDirectory : here.entry.isDirectory with
  | false => exact skips_visit_file isDirectory
  | true =>
      simp only [visit, isDirectory, if_true, visitDirectory] at failed ⊢
      split at failed
      · cases failed
      · next other log after observed =>
          have silent : skips log = [] := by
            obtain ⟨notes, rfl⟩ := exists_logged observed
            exact skips_logged options notes
          have made : skips (if options.listsOnly then [] else [.makeDirectory here.path])
              = [] := by
            cases options.listsOnly <;> rfl
          rw [← List.singleton_append, skips_append, skips_append, silent, made]
          rfl

/-- The options with a choice of whether the paths are only printed. -/
def Options.withList (options : Options) (listsOnly : Bool) : Options :=
  { options with listsOnly }

theorem Visit.of_withList (options : Options) (listsOnly : Bool)
    : Visit.of (options.withList listsOnly) = Visit.of options := rfl

/-- Effects that print the same lines and skip the same names. -/
structure TellAlike (effects others : List Effect) : Prop where
  output_eq : Effect.output effects = Effect.output others
  skips_eq : skips effects = skips others

theorem TellAlike.append {first second others more : List Effect} (front : TellAlike first others)
    (behind : TellAlike second more)
    : TellAlike (first ++ second) (others ++ more) where
  output_eq := by rw [output_append, output_append, front.output_eq, behind.output_eq]
  skips_eq := by rw [skips_append, skips_append, front.skips_eq, behind.skips_eq]

/-- A visit that extracts an entry tells the same as one that lists it. -/
theorem visits_tellAlike (opens : Opens data volume drive) {extracting listing : Drive}
    (holds : extracting.Holds data) (holdsToo : listing.Holds data)
    : TellAlike (visit (options.withList false) volume extracting (.of options entry)).effects
        (visit (options.withList true) volume listing (.of options entry)).effects where
  output_eq := (output_visit ..).trans (output_visit ..).symm
  skips_eq := by
    cases isDirectory : entry.isDirectory with
    | true =>
        cases listed : found data (volume.readDirectory entry) with
        | ok children =>
            -- Both read the same entries, and skip those of the same names.
            have can (listsOnly : Bool) : CanVisit (options.withList listsOnly) data volume entry
                (doings (options.withList listsOnly) data volume entry) :=
              canVisit_directory opens isDirectory listed
            obtain ⟨after, -, visited⟩ := can false extracting holds
            obtain ⟨afterToo, -, visitedToo⟩ := can true listing holdsToo
            rw [Visit.of_withList] at visited visitedToo
            rw [visited, visitedToo, skips, skips, (lines_doings _ data volume entry).2,
              (lines_doings _ data volume entry).2]
            rfl
        | error failure =>
            have cannot (listsOnly : Bool)
                : CannotVisit (options.withList listsOnly) data volume entry :=
              cannotVisit_directory _ opens isDirectory listed
            obtain ⟨effects, raised, after, -, visited⟩ := cannot false extracting holds
            obtain ⟨others, raisedToo, afterToo, -, visitedToo⟩ := cannot true listing holdsToo
            rw [Visit.of_withList] at visited visitedToo
            rw [skips_visit_error (congrArg Visited.outcome visited),
              skips_visit_error (congrArg Visited.outcome visitedToo)]
    | false =>
        have isFile : (Visit.of options entry).entry.isDirectory = false := isDirectory
        rw [skips_visit_file isFile, skips_visit_file isFile]

/-- An entry that is extracted can be listed. -/
theorem exists_listed (opens : Opens data volume drive) {extracting listing : Drive}
    (holds : extracting.Holds data) (holdsToo : listing.Holds data) {visits : List Visit}
    (extracted : (visit (options.withList false) volume extracting (.of options entry)).outcome
      = .ok visits)
    : ∃ effects after, after.Holds data
        ∧ visit (options.withList true) volume listing (.of options entry)
          = ⟨effects, .ok ((safeChildren data volume entry).map (.of options)), after⟩ := by
  have can : CanVisit (options.withList true) data volume entry
      (doings (options.withList true) data volume entry) := by
    cases isDirectory : entry.isDirectory with
    | false => exact canVisit_listed rfl isDirectory
    | true =>
        cases listed : found data (volume.readDirectory entry) with
        | ok children => exact canVisit_directory opens isDirectory listed
        | error failure =>
            -- Extracting would have failed to read the directory as well.
            have cannot : CannotVisit (options.withList false) data volume entry :=
              cannotVisit_directory _ opens isDirectory listed
            obtain ⟨effects, raised, after, -, visited⟩ := cannot extracting holds
            rw [Visit.of_withList] at visited
            rw [visited] at extracted
            cases extracted
  obtain ⟨after, holdsAfter, visited⟩ := can listing holdsToo
  exact ⟨_, after, holdsAfter, visited⟩

/-- What extracting has told when it ends, beside what listing has told: no more, and as much where
nothing failed.
-/
structure TellsPart (extracted : List Effect) (status : Nat) (listed : List Effect) (other : Nat)
    : Prop where
  output_prefix : Effect.output extracted <+: Effect.output listed
  skips_prefix : skips extracted <+: skips listed
  whole : status = 0 → TellAlike extracted listed ∧ other = 0

theorem TellsPart.append {first others extracted listed : List Effect} {status other : Nat}
    (alike : TellAlike first others) (behind : TellsPart extracted status listed other)
    : TellsPart (first ++ extracted) status (others ++ listed) other where
  output_prefix := by
    rw [output_append, output_append, alike.output_eq]
    exact (List.prefix_append_right_inj _).mpr behind.output_prefix
  skips_prefix := by
    rw [skips_append, skips_append, alike.skips_eq]
    exact (List.prefix_append_right_inj _).mpr behind.skips_prefix
  whole isZero := ⟨alike.append (behind.whole isZero).1, (behind.whole isZero).2⟩

/-- Where extracting fails it has nothing to say of that to those who listen for paths and names. -/
theorem TellsPart.of_failed {first others report more : List Effect} {other : Nat}
    (alike : TellAlike first others) (silent : Effect.output report = [])
    (noSkips : skips report = [])
    : TellsPart (first ++ report) 1 (others ++ more) other := by
  refine .append alike ⟨?_, ?_, fun impossible => nomatch impossible⟩
  · exact silent ▸ List.nil_prefix
  · exact noSkips ▸ List.nil_prefix

/-- A walk that extracts tells a part of what a walk that lists tells, from the same visits on. By
induction on the number of its steps.
-/
theorem walks_tell (opens : Opens data volume drive) {extracting listing : Drive}
    (holds : extracting.Holds data) (holdsToo : listing.Holds data) {limit more status other : Nat}
    {entries : List Entry} {extracted listed : List Effect}
    (extraction : proceed (options.withList false) limit
        (.walking volume extracting (entries.map (.of options))) = (extracted, some status))
    (enumeration : proceed (options.withList true) more
        (.walking volume listing (entries.map (.of options))) = (listed, some other))
    (spares : SparesImage options extracted)
    : TellsPart extracted status listed other := by
  induction limit generalizing extracting listing more entries extracted listed with
  | zero => cases extraction
  | succ limit ih =>
      obtain ⟨more, rfl⟩ : ∃ steps, more = steps + 1 := by
        cases more with
        | zero => cases enumeration
        | succ steps => exact ⟨steps, rfl⟩
      cases entries with
      | nil =>
          rw [List.map_nil, proceed_empty] at extraction enumeration
          cases extraction
          cases enumeration
          exact ⟨List.prefix_rfl, List.prefix_rfl, fun _ => ⟨⟨rfl, rfl⟩, rfl⟩⟩
      | cons entry rest =>
          rw [List.map_cons] at extraction enumeration
          have first : (visit (options.withList false) volume extracting
                (.of (options.withList false) entry)).effects <+: extracted :=
            visit_prefix_of_proceed extraction
          have sparesToo : SparesImage (options.withList false) extracted := spares
          have isApart := isApart_of_visit sparesToo first rfl
          have ends := visit_ends opens holds fun _ => isApart
          have alike : TellAlike
              (visit (options.withList false) volume extracting (.of options entry)).effects
              (visit (options.withList true) volume listing (.of options entry)).effects :=
            visits_tellAlike opens holds holdsToo
          rw [Visit.of_withList] at ends
          rcases ends with
            ⟨effects, after, holdsAfter, visited⟩ | ⟨effects, failure, after, -, visited⟩
          · obtain ⟨others, afterToo, holdsAfterToo, visitedToo⟩ :=
              exists_listed opens holds holdsToo (congrArg Visited.outcome visited)
            rw [proceed_of_ok visited, ← List.map_append] at extraction
            rw [proceed_of_ok visitedToo, ← List.map_append] at enumeration
            obtain ⟨rfl, goesOn⟩ := Prod.mk.inj extraction
            obtain ⟨rfl, goesOnToo⟩ := Prod.mk.inj enumeration
            rw [visited, visitedToo] at alike
            exact .append alike (ih holdsAfter holdsAfterToo (Prod.ext rfl goesOn)
              (Prod.ext rfl goesOnToo) spares.behind)
          · obtain ⟨behind, rfl⟩ := visit_prefix_of_proceed enumeration
            rw [proceed_of_error visited] at extraction
            cases extraction
            rw [visited] at alike
            exact .of_failed alike areWarnings_giveUp.output_eq (skips_giveUp ..)

-----------------------------------------------------------------------------------------
-- Whole runs
-----------------------------------------------------------------------------------------

/-- How a run of some status ends: with 0 just if the image opens and nothing is raised on the way,
and with 1 otherwise. What is raised is a verdict on the image.
-/
structure IsDecided (options : Options) (data : ByteArray) (status : Nat) : Prop where
  zero_or_one : status = 0 ∨ status = 1
  succeeds : status = 0
    ↔ ∃ volume drive, Opens data volume drive
      ∧ ∀ failure, ¬ RaisesFrom options volume drive failure
  isVerdict : ∀ volume drive failure, Opens data volume drive
    → RaisesFrom options volume drive failure → failure.IsVerdict

theorem Opens.unique {other : Volume Drive} {driveToo : Drive} (opens : Opens data volume drive)
    (opensToo : Opens data other driveToo)
    : volume = other ∧ drive = driveToo := by
  cases opens.symm.trans opensToo
  exact ⟨rfl, rfl⟩

/-- A run on an image that does not open is over at once. -/
theorem run_of_unopened (options : Options)
    (unopened : ∀ volume drive, ¬ Opens data volume drive) (limit : Nat)
    : ∃ report, Effect.output report = [] ∧ skips report = []
        ∧ run options (.contents data) limit
          = (.say ("Opening " ++ options.image) :: report, some 1) := by
  rcases observed : observe options (openImage data) (freshDrive data) with ⟨outcome, log, after⟩
  cases outcome with
  | ok volume => exact absurd (observe_eq_ok observed) (unopened volume after)
  | error failure =>
      refine ⟨log ++ (giveUp options "open" failure.message).1, ?_, ?_, ?_⟩
      · rw [output_append, (areWarnings_of_observe observed).output_eq,
          areWarnings_giveUp.output_eq]
        rfl
      · obtain ⟨notes, rfl⟩ := exists_logged observed
        rw [skips_append, skips_logged, skips_giveUp]
        rfl
      · rw [run, start_of_unopened observed]
        simp only [giveUp, proceed_finished, List.append_nil, List.cons_append]

/-- From the root directory that is found the walk goes on. -/
theorem exists_entered (options : Options) (opens : Opens data volume drive) {root : Entry}
    (isRoot : found data volume.root = .ok root)
    : ∃ after : Drive, after.Holds data
        ∧ enterRoot options volume drive = ([], .walking volume after ([root].map (.of options)))
        ∧ ∀ failure, RaisesFrom options volume drive failure
          ↔ Raises options volume after ([root].map (.of options)) failure := by
  obtain ⟨after, holds, observed⟩ := observe_root options opens
  obtain ⟨same, -, entered⟩ := enterRoot_of_ok options opens isRoot
  rw [isRoot] at observed
  have entering : enterRoot options volume drive
      = ([], .walking volume after [⟨root, options.destination⟩]) := by
    simp only [enterRoot, observed]
  have visits : [⟨root, options.destination⟩] = [root].map (Visit.of options) := by
    rw [entering] at entered
    exact (Stage.walking.inj (Prod.mk.inj entered).2).2.2
  rw [visits] at entering
  refine ⟨after, holds, entering, fun failure => ⟨fun raises => ?_, fun raises => ?_⟩⟩
  · cases raises with
    | root observedToo => cases observed.symm.trans observedToo
    | below observedToo raises =>
        cases observed.symm.trans observedToo
        exact visits ▸ raises
  · exact .below observed (visits ▸ raises)

/-- A run on an open image is decided by what is raised on the way. -/
theorem Opens.isDecided (opens : Opens data volume drive) {status : Nat}
    (ends : status = 0 ∧ (∀ failure, ¬ RaisesFrom options volume drive failure)
      ∨ status = 1 ∧ ∃ failure, failure.IsVerdict ∧ RaisesFrom options volume drive failure)
    : IsDecided options data status where
  zero_or_one := ends.imp And.left And.left
  succeeds := by
    constructor
    · rintro rfl
      rcases ends with ⟨-, quiet⟩ | ⟨impossible, -⟩
      · exact ⟨volume, drive, opens, quiet⟩
      · cases impossible
    · rintro ⟨other, driveToo, opensToo, quiet⟩
      obtain ⟨rfl, rfl⟩ := opens.unique opensToo
      rcases ends with ⟨isZero, -⟩ | ⟨-, failure, -, raises⟩
      · exact isZero
      · exact absurd raises (quiet failure)
  isVerdict := by
    intro other driveToo failure opensToo raises
    obtain ⟨rfl, rfl⟩ := opens.unique opensToo
    rcases ends with ⟨-, quiet⟩ | ⟨-, raised, isVerdict, raisesToo⟩
    · exact absurd raises (quiet failure)
    · exact raises.unique raisesToo ▸ isVerdict

/-- A run is decided by whether the image opens and what the walk raises. -/
theorem isDecided_of_run {limit status : Nat} {effects : List Effect}
    (ended : run options (.contents data) limit = (effects, some status))
    (spares : options.listsOnly = false → SparesImage options effects)
    : IsDecided options data status := by
  by_cases opened : ∃ volume drive, Opens data volume drive
  · obtain ⟨volume, drive, opens⟩ := opened
    rw [run_of_opens opens] at ended
    obtain ⟨rfl, finished⟩ := Prod.mk.inj ended
    cases root : found data volume.root with
    | ok root =>
        obtain ⟨after, holds, entered, raises⟩ := exists_entered options opens root
        rw [entered] at finished spares
        refine opens.isDecided ?_
        simp only [raises]
        exact walk_ends opens holds (Prod.ext rfl finished) fun extracts => (spares extracts).behind
    | error failure =>
        obtain ⟨isVerdict, entered⟩ := enterRoot_of_error options opens root
        obtain ⟨after, -, observed⟩ := observe_root options opens
        rw [root] at observed
        rw [entered, proceed_finished] at finished
        cases finished
        exact opens.isDecided (.inr ⟨rfl, failure, isVerdict, .root observed⟩)
  · have unopened : ∀ volume drive, ¬ Opens data volume drive := fun volume drive opens =>
      opened ⟨volume, drive, opens⟩
    obtain ⟨report, -, -, atOnce⟩ := run_of_unopened options unopened limit
    rw [atOnce] at ended
    cases ended
    exact {
      zero_or_one := .inr rfl
      succeeds := ⟨nofun, fun ⟨volume, drive, opens, _⟩ => absurd opens (unopened volume drive)⟩
      isVerdict := fun volume drive _ opens _ => absurd opens (unopened volume drive)
    }

/-- Before the walk both runs print that the image is opened, and no names are skipped. -/
theorem opening_tellAlike (options : Options) (notes : Notes)
    : TellAlike (.say ("Opening " ++ options.image) :: logged (options.withList false) notes)
        (.say ("Opening " ++ options.image) :: logged (options.withList true) notes) :=
  ⟨rfl, rfl⟩

/-- What a run that extracts tells is a part of what a run that lists tells. -/
theorem runs_tell (data : ByteArray) (options : Options)
    {limit more status other : Nat} {extracted listed : List Effect}
    (extraction : run (options.withList false) (.contents data) limit = (extracted, some status))
    (enumeration : run (options.withList true) (.contents data) more = (listed, some other))
    (spares : SparesImage options extracted)
    : TellsPart extracted status listed other := by
  have greeting : TellAlike [.say ("Opening " ++ options.image)]
      [.say ("Opening " ++ options.image)] := ⟨rfl, rfl⟩
  by_cases opened : ∃ volume drive, Opens data volume drive
  · obtain ⟨volume, drive, opens⟩ := opened
    rw [run_of_opens opens] at extraction enumeration
    obtain ⟨rfl, finished⟩ := Prod.mk.inj extraction
    obtain ⟨rfl, finishedToo⟩ := Prod.mk.inj enumeration
    have opening := opening_tellAlike options drive.notes
    cases root : found data volume.root with
    | ok root =>
        obtain ⟨after, holds, entered, -⟩ := exists_entered (options.withList false) opens root
        obtain ⟨afterToo, holdsToo, enteredToo, -⟩ :=
          exists_entered (options.withList true) opens root
        rw [entered, List.append_nil] at spares ⊢
        rw [enteredToo, List.append_nil]
        rw [entered] at finished
        rw [enteredToo] at finishedToo
        refine .append opening ?_
        exact walks_tell opens holds holdsToo (Prod.ext rfl finished) (Prod.ext rfl finishedToo)
          spares.behind
    | error failure =>
        obtain ⟨-, entered⟩ := enterRoot_of_error (options.withList false) opens root
        rw [entered, proceed_finished] at finished ⊢
        cases finished
        rw [List.append_nil, List.append_assoc _ (enterRoot (options.withList true) volume drive).1]
        exact .of_failed opening areWarnings_giveUp.output_eq (skips_giveUp ..)
  · have unopened : ∀ volume drive, ¬ Opens data volume drive := fun volume drive opens =>
      opened ⟨volume, drive, opens⟩
    obtain ⟨report, silent, noSkips, atOnce⟩ :=
      run_of_unopened (options.withList false) unopened limit
    obtain ⟨reportToo, -, -, atOnceToo⟩ := run_of_unopened (options.withList true) unopened more
    rw [atOnce] at extraction
    rw [atOnceToo] at enumeration
    cases extraction
    cases enumeration
    exact .of_failed greeting silent noSkips

/-- To list an image is to rehearse its extraction. An extraction prints the first of the lines that
a listing prints, and skips the first of the names; where it succeeds it prints and skips the same,
and the listing succeeds as well. Either of them succeeds just if the image opens and nothing is
raised.
-/
theorem extraction_rehearsed (data : ByteArray) (options : Options)
    {limit more status other : Nat} {extracted listed : List Effect}
    (extraction : run (options.withList false) (.contents data) limit = (extracted, some status))
    (enumeration : run (options.withList true) (.contents data) more = (listed, some other))
    (spares : SparesImage options extracted)
    : TellsPart extracted status listed other
      ∧ (other = 1 → status = 1)
      ∧ IsDecided (options.withList false) data status
      ∧ IsDecided (options.withList true) data other := by
  have tells := runs_tell data options extraction enumeration spares
  have decided : IsDecided (options.withList false) data status :=
    isDecided_of_run extraction fun _ => spares
  have decidedToo : IsDecided (options.withList true) data other :=
    isDecided_of_run enumeration nofun
  refine ⟨tells, fun isOne => ?_, decided, decidedToo⟩
  rcases decided.zero_or_one with isZero | isOneToo
  · have otherIsZero : other = 0 := (tells.whole isZero).2
    omega
  · exact isOneToo

/-- The tree is extracted as it is listed. -/
theorem extraction_rehearsed_tree
    : ∃ extracted listed,
        run (treeOptions.withList false) (.contents treePlan.image) 5 = (extracted, some 0)
        ∧ run (treeOptions.withList true) (.contents treePlan.image) 5 = (listed, some 0)
        ∧ TellsPart extracted 0 listed 0
        ∧ IsDecided (treeOptions.withList false) treePlan.image 0
        ∧ IsDecided (treeOptions.withList true) treePlan.image 0 := by
  obtain ⟨volume, drive, isOpen⟩ := treePlan_isSound.exists_isOpen
  have readable := isOpen.isReadable treePlan_isSound
  have isAcyclic := treePlan_isAcyclic isOpen
  have copyable : (treeOptions.withList false).listsOnly = false
      → IsCopyable (treeOptions.withList false) treePlan.image volume :=
    fun _ => isCopyable_tree isOpen
  have listed : (treeOptions.withList true).listsOnly = false
      → IsCopyable (treeOptions.withList true) treePlan.image volume := nofun
  obtain ⟨order, inOrder, extraction⟩ := exists_run_eq isOpen.opens readable isAcyclic copyable
  obtain ⟨others, inOrderToo, enumeration⟩ := exists_run_eq isOpen.opens readable isAcyclic listed
  obtain rfl := inOrder.unique (isLevelOrder_treeEntries isOpen)
  obtain rfl := inOrderToo.unique (isLevelOrder_treeEntries isOpen)
  have inTime : (treeEntries volume).length < 5 := by simp [treeEntries]
  obtain ⟨tells, -, decided, decidedToo⟩ :=
    extraction_rehearsed _ _ (extraction 5 inTime) (enumeration 5 inTime) (by
      intro path bytes member
      have written := List.mem_append.mp member
      rcases written with opening | visits
      · rcases List.mem_cons.mp opening with impossible | note
        · cases impossible
        · cases areWarnings_logged.target? _ note
      · refine Effect.left?_eq_none_iff.mp ?_ path bytes visits
        refine left?_doings_eq_none fun entry reached isFile => ?_
        exact (isCopyable_tree isOpen).isApart entry (inOrder.mem_iff.mp reached) isFile)
  exact ⟨_, _, extraction 5 inTime, enumeration 5 inTime, tells, decided, decidedToo⟩

end Extraction

end DiscVolume
