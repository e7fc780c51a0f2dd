import DiscVolume.Extraction

/-! What single steps of extraction do to the host: a visit prints one line, writes to one path at
most, and then only warns.
-/

namespace DiscVolume.Extraction

-----------------------------------------------------------------------------------------
-- What effects write and print
-----------------------------------------------------------------------------------------

/-- The path of the host that an effect writes to. -/
def Effect.target? : Effect → Option String
  | say _ | warn _ => none
  | makeDirectory path | writeFile path _ => some path

theorem output_append (first second : List Effect)
    : Effect.output (first ++ second) = Effect.output first ++ Effect.output second :=
  List.filterMap_append

/-- Effects that warn and do nothing else. -/
def AreWarnings (effects : List Effect) : Prop := ∀ effect ∈ effects, ∃ line, effect = .warn line

theorem AreWarnings.append {first second : List Effect} (ofFirst : AreWarnings first)
    (ofSecond : AreWarnings second)
    : AreWarnings (first ++ second) := by
  intro effect member
  rcases List.mem_append.mp member with member | member
  · exact ofFirst effect member
  · exact ofSecond effect member

theorem AreWarnings.target? {effects : List Effect} (areWarnings : AreWarnings effects)
    : ∀ effect ∈ effects, effect.target? = none := by
  intro effect member
  obtain ⟨line, rfl⟩ := areWarnings effect member
  rfl

theorem AreWarnings.output_eq {effects : List Effect} (areWarnings : AreWarnings effects)
    : Effect.output effects = [] := by
  refine List.filterMap_eq_nil_iff.mpr (fun effect member => ?_)
  obtain ⟨line, rfl⟩ := areWarnings effect member
  rfl

-----------------------------------------------------------------------------------------
-- Observed steps
-----------------------------------------------------------------------------------------

variable {options : Options} {volume : Volume Drive} {drive : Drive} {here : Visit}

theorem areWarnings_logged {notes : Notes} : AreWarnings (logged options notes) := by
  intro effect member
  unfold logged at member
  split at member
  · obtain ⟨note, -, rfl⟩ := List.mem_map.mp member
    exact ⟨_, rfl⟩
  all_goals cases member

/-- All that is logged of a reading step are warnings. -/
theorem areWarnings_of_observe {step : Access Drive α} {outcome : Except Failure α}
    {log : List Effect} {after : Drive}
    (observed : observe options step drive = (outcome, log, after))
    : AreWarnings log := by
  unfold observe at observed
  split at observed
  all_goals
    cases observed
    exact areWarnings_logged

theorem areWarnings_warningsAbout {children : List Entry}
    : AreWarnings (warningsAbout here children) := by
  intro effect member
  obtain ⟨child, -, rfl⟩ := List.mem_map.mp member
  exact ⟨_, rfl⟩

theorem logged_nil (options : Options) : logged options [] = [] := by
  unfold logged
  split <;> rfl

/-- A step is observed with what it tells. -/
theorem observe_of_ok {step : Access Drive α} {value : α} {after : Drive}
    (stepped : step { drive with notes := [] } = .ok value after)
    : observe options step drive = (.ok value, logged options after.notes, after) := by
  simp only [observe, stepped]

theorem observe_of_error {step : Access Drive α} {failure : Failure} {after : Drive}
    (stepped : step { drive with notes := [] } = .error failure after)
    : observe options step drive = (.error failure, logged options after.notes, after) := by
  simp only [observe, stepped]

/-- What is observed to succeed succeeds on the drive without its notes. -/
theorem observe_eq_ok {step : Access Drive α} {value : α} {log : List Effect} {after : Drive}
    (observed : observe options step drive = (.ok value, log, after))
    : step { drive with notes := [] } = .ok value after := by
  unfold observe at observed
  split at observed
  · next found =>
      cases observed
      exact found
  · cases observed

/-- What is observed to fail fails on the drive without its notes. -/
theorem observe_eq_error {step : Access Drive α} {failure : Failure} {log : List Effect}
    {after : Drive} (observed : observe options step drive = (.error failure, log, after))
    : step { drive with notes := [] } = .error failure after := by
  unfold observe at observed
  split at observed
  · cases observed
  · next found =>
      cases observed
      exact found

theorem areWarnings_giveUp {doing report : String}
    : AreWarnings (giveUp options doing report).1 := by
  simp [AreWarnings, giveUp]

-----------------------------------------------------------------------------------------
-- Visits
-----------------------------------------------------------------------------------------

/-- A visit prints the path of its entry first, then writes to its own path at most, and then
only warns.
-/
theorem exists_written (options : Options) (volume : Volume Drive) (drive : Drive) (here : Visit)
    : ∃ (written : Option Effect) (others : List Effect),
        (visit options volume drive here).effects
          = .say ("/" ++ here.entry.path) :: written.toList ++ others
        ∧ (∀ effect ∈ written, effect.target? = some here.path)
        ∧ AreWarnings others := by
  have unwritten : ∀ effect ∈ (none : Option Effect), effect.target? = some here.path := by simp
  unfold visit
  split
  · -- A directory is made before it is read, whatever comes of that.
    have made : ∃ written : Option Effect,
        written.toList = (if options.listsOnly then [] else [Effect.makeDirectory here.path])
        ∧ ∀ effect ∈ written, effect.target? = some here.path := by
      cases options.listsOnly with
      | true => exact ⟨none, rfl, unwritten⟩
      | false => exact ⟨some (.makeDirectory here.path), rfl, by simp [Effect.target?]⟩
    obtain ⟨written, writtenEq, ofWritten⟩ := made
    simp only [visitDirectory, ← writtenEq]
    split
    · next children log after observed =>
        refine ⟨written, log ++ warningsAbout here children, ?_, ofWritten, ?_⟩
        · simp
        · exact (areWarnings_of_observe observed).append areWarnings_warningsAbout
    · next failure log after observed =>
        exact ⟨written, log, by simp, ofWritten, areWarnings_of_observe observed⟩
  · unfold visitFile
    split
    · exact ⟨none, [], rfl, unwritten, by simp [AreWarnings]⟩
    · split
      · exact ⟨none, [], rfl, unwritten, by simp [AreWarnings]⟩
      · next stream opened =>
          refine ⟨(copyOut options stream drive here.path).effects.head?, [], rfl, ?_, ?_⟩
          · simp [copyOut, Effect.target?]
          · simp [AreWarnings]

/-- A visit prints the path of its entry and nothing else. -/
theorem output_visit (options : Options) (volume : Volume Drive) (drive : Drive) (here : Visit)
    : Effect.output (visit options volume drive here).effects = ["/" ++ here.entry.path] := by
  obtain ⟨written, others, effectsEq, ofWritten, areWarnings⟩ :=
    exists_written options volume drive here
  have silent : Effect.output written.toList = [] := by
    refine List.filterMap_eq_nil_iff.mpr (fun effect member => ?_)
    have found := ofWritten effect (by simpa using member)
    cases effect with
    | say line => cases found
    | warn | makeDirectory | writeFile => rfl
  rw [effectsEq, List.cons_append, ← List.singleton_append, output_append, output_append, silent,
    areWarnings.output_eq]
  rfl

-----------------------------------------------------------------------------------------
-- The start
-----------------------------------------------------------------------------------------

/-- Opening the image in which data are found. -/
def openImage (data : ByteArray) : Access Drive (Volume Drive) :=
  Volume.ofSupply (.file (.declared "rb") (Drive.source data.size))

/-- A drive from which nothing has been read. -/
def freshDrive (data : ByteArray) : Drive := { image := { contents := data } }

variable {data : ByteArray} {log : List Effect} {after : Drive}

/-- An image that cannot be opened is given up. -/
theorem start_of_unopened {failure : Failure}
    (observed : observe options (openImage data) (freshDrive data) = (.error failure, log, after))
    : start options (.contents data)
      = (.say ("Opening " ++ options.image)
            :: log ++ (giveUp options "open" failure.message).1,
          (giveUp options "open" failure.message).2) := by
  unfold openImage freshDrive at observed
  rw [start]
  -- Opening is not to be carried out here, so nothing but its outcome is kept.
  generalize observe options _ _ = found at observed ⊢
  subst observed
  rfl

/-- From an image that can be opened extraction goes on to the root directory. -/
theorem start_of_opened
    (observed : observe options (openImage data) (freshDrive data) = (.ok volume, log, after))
    : start options (.contents data)
      = (.say ("Opening " ++ options.image) :: log ++ (enterRoot options volume after).1,
          (enterRoot options volume after).2) := by
  unfold openImage freshDrive at observed
  rw [start]
  generalize observe options _ _ = found at observed ⊢
  subst observed
  rfl

end DiscVolume.Extraction
