import DiscVolume.Proofs.Directory.Children
import DiscVolume.Proofs.Extraction.Paths
import DiscVolume.Proofs.Extraction.Steps

/-! Extraction stays inside its destination. Names that could lead elsewhere are passed over in
every directory, so each path that is written to leads from the destination down through the
names of the entry whose path was printed just before.
-/

namespace DiscVolume.Extraction

open HostPath

-----------------------------------------------------------------------------------------
-- Where effects write
-----------------------------------------------------------------------------------------

/-- A path that leads from the destination down through components, and from there nowhere else.
-/
structure LeadsBelow (destination : String) (names : List String) (target : String) : Prop where
  areComponents : ∀ name ∈ names, IsComponent name
  target_eq : target = names.foldl join destination
  isAbsolute_eq : isAbsolute target = isAbsolute destination
  place_eq : place target = place destination ++ names

/-- Components that are joined to the destination lead below it. -/
theorem LeadsBelow.of_join {names : List String}
    (areComponents : ∀ name ∈ names, IsComponent name) (destination : String)
    : LeadsBelow destination names (names.foldl join destination) where
  areComponents
  target_eq := rfl
  isAbsolute_eq := isAbsolute_foldl_join areComponents destination
  place_eq := place_foldl_join areComponents destination

/-- A line shows names when they are the parts of the path that it prints. The path of the root,
which has no names, is empty.
-/
def Shows (line : String) (names : List String) : Prop :=
  ∃ path, line = "/" ++ path ∧ if names = [] then path = "" else components path = names

/-- Whatever is written follows the line of an entry, and is written below the destination where
this line shows.
-/
def IsConfined (destination : String) (effects : List Effect) : Prop :=
  ∀ before effect after target, effects = before ++ effect :: after
    → effect.target? = some target
    → ∃ line names, before.getLast? = some (.say line) ∧ Shows line names
        ∧ LeadsBelow destination names target

variable {destination : String}

/-- Nothing is written by effects that have no target. -/
theorem IsConfined.of_noTarget {effects : List Effect}
    (noTarget : ∀ effect ∈ effects, effect.target? = none)
    : IsConfined destination effects := by
  intro before effect after target split found
  have absent := noTarget effect (by simp [split])
  simp [absent] at found

/-- What is confined stays so among other effects, which come before it or after it. -/
theorem IsConfined.append {first second : List Effect}
    (confinedFirst : IsConfined destination first)
    (confinedSecond : IsConfined destination second)
    : IsConfined destination (first ++ second) := by
  intro before effect after target split found
  rcases List.append_eq_append_iff.mp split with
    ⟨between, beforeEq, secondEq⟩ | ⟨between, firstEq, restEq⟩
  · obtain ⟨line, names, last, showsNames, leads⟩ :=
      confinedSecond between effect after target secondEq found
    exact ⟨line, names, by simp [beforeEq, last], showsNames, leads⟩
  · -- The first part ends at the effect or goes on behind it.
    rcases between with _ | ⟨head, between⟩
    · obtain ⟨line, names, last, -⟩ :=
        confinedSecond [] effect after target restEq.symm found
      cases last
    · obtain ⟨rfl, afterEq⟩ := List.cons_eq_cons.mp restEq
      exact confinedFirst before effect between target firstEq found

/-- What directly follows the line of an entry is confined if it is written where the line shows.
-/
theorem IsConfined.of_pair {line target : String} {names : List String} {effect : Effect}
    (found : effect.target? = some target) (showsNames : Shows line names)
    (leads : LeadsBelow destination names target)
    : IsConfined destination [.say line, effect] := by
  intro before other after targetOfOther split foundOther
  rcases before with _ | ⟨first, _ | ⟨second, rest⟩⟩
  · obtain ⟨rfl, -⟩ := List.cons_eq_cons.mp split
    cases foundOther
  · obtain ⟨firstEq, split⟩ := List.cons_eq_cons.mp split
    obtain ⟨rfl, -⟩ := List.cons_eq_cons.mp split
    obtain rfl : target = targetOfOther := by simpa [found] using foundOther
    exact ⟨line, names, by simp [← firstEq], showsNames, leads⟩
  · simp at split

-----------------------------------------------------------------------------------------
-- Visits keep to their places
-----------------------------------------------------------------------------------------

/-- The path that an entry has below the destination. -/
def outputPath (destination : String) (entry : Entry) : String :=
  entry.names.foldl join destination

/-- A visit leads to an entry through components, and extracts it to its own path. -/
structure Visit.IsInPlace (destination : String) (here : Visit) : Prop where
  areComponents : ∀ name ∈ here.entry.names, IsComponent name
  path_eq : here.path = outputPath destination here.entry

def Stage.IsInPlace (destination : String) : Stage → Prop
  | .walking _ _ queue => ∀ here ∈ queue, here.IsInPlace destination
  | .finished _ => True

/-- The line of an entry shows its names. -/
theorem shows_path {entry : Entry} (areComponents : ∀ name ∈ entry.names, IsComponent name)
    : Shows ("/" ++ entry.path) entry.names := by
  refine ⟨entry.path, rfl, ?_⟩
  cases isRoot : entry.isRoot with
  | true =>
      rw [if_pos (Entry.names_eq_nil.mpr isRoot)]
      cases entry with
      | root => rfl
      | child => cases isRoot
  | false =>
      have notEmpty : entry.names ≠ [] := fun empty => by
        simp [Entry.names_eq_nil.mp empty] at isRoot
      rw [if_neg notEmpty]
      exact Entry.components_path isRoot areComponents

/-- A child with a safe name is visited in its place when its directory is. -/
theorem Visit.IsInPlace.visitsTo {here : Visit} (inPlace : here.IsInPlace destination)
    {children : List Entry} (areChildren : ∀ child ∈ children, child.IsChildOf here.entry)
    : ∀ next ∈ visitsTo here children, next.IsInPlace destination := by
  intro next member
  simp only [Extraction.visitsTo, List.mem_map, List.mem_filter] at member
  obtain ⟨child, ⟨isMember, isSafe⟩, rfl⟩ := member
  have isChild := areChildren child isMember
  have isComponent := IsComponent.of_isSafeName isSafe isChild.name_ne_empty
  obtain ⟨record, identifier, rfl, -⟩ := isChild
  constructor
  · intro name isName
    rcases List.mem_append.mp isName with above | last
    · exact inPlace.areComponents name above
    · obtain rfl := List.mem_singleton.mp last
      exact isComponent
  · simp only [outputPath, Entry.names, List.foldl_append, List.foldl_cons, List.foldl_nil]
    exact congrArg (join · identifier.name) inPlace.path_eq

variable {options : Options} {volume : Volume Drive} {drive : Drive} {here : Visit}

/-- A visit in its place is confined. -/
theorem Visit.IsInPlace.isConfined (inPlace : here.IsInPlace destination)
    : IsConfined destination (visit options volume drive here).effects := by
  obtain ⟨written, others, effectsEq, ofWritten, areWarnings⟩ :=
    exists_written options volume drive here
  have leads : LeadsBelow destination here.entry.names here.path :=
    inPlace.path_eq ▸ .of_join inPlace.areComponents destination
  rw [effectsEq]
  refine IsConfined.append ?_ (.of_noTarget areWarnings.target?)
  cases written with
  | none => exact .of_noTarget (by simp [Effect.target?])
  | some effect => exact .of_pair (ofWritten effect rfl) (shows_path inPlace.areComponents) leads

/-- A visit in its place leads to visits in theirs. -/
theorem Visit.IsInPlace.of_visit {visits : List Visit} (inPlace : here.IsInPlace destination)
    (found : (visit options volume drive here).outcome = .ok visits)
    : ∀ next ∈ visits, next.IsInPlace destination := by
  unfold visit at found
  split at found
  · simp only [visitDirectory] at found
    split at found
    · next children log after observed =>
        cases found
        exact inPlace.visitsTo (Volume.children_of_readDirectory (observe_eq_ok observed))
    · cases found
  · -- A file leads nowhere.
    unfold visitFile at found
    have none : visits = [] := by
      split at found
      · cases found
        rfl
      · split at found
        · cases found
        · simp only [copyOut] at found
          split at found
          · cases found
          · cases found
            rfl
    simp [none]

-----------------------------------------------------------------------------------------
-- Runs keep to the destination
-----------------------------------------------------------------------------------------

/-- Every line that is printed shows components. -/
def ShowsComponents (effects : List Effect) : Prop :=
  ∀ line ∈ Effect.output effects, ∃ names, (∀ name ∈ names, IsComponent name) ∧ Shows line names

theorem ShowsComponents.append {first second : List Effect}
    (ofFirst : ShowsComponents first) (ofSecond : ShowsComponents second)
    : ShowsComponents (first ++ second) := by
  intro line member
  rw [output_append] at member
  rcases List.mem_append.mp member with member | member
  · exact ofFirst line member
  · exact ofSecond line member

theorem AreWarnings.showsComponents {effects : List Effect} (areWarnings : AreWarnings effects)
    : ShowsComponents effects := by
  simp [ShowsComponents, areWarnings.output_eq]

/-- Confined to a destination, with lines that show components only. -/
structure KeepsTo (destination : String) (effects : List Effect) : Prop where
  isConfined : IsConfined destination effects
  showsComponents : ShowsComponents effects

theorem KeepsTo.append {first second : List Effect} (ofFirst : KeepsTo destination first)
    (ofSecond : KeepsTo destination second)
    : KeepsTo destination (first ++ second) :=
  ⟨ofFirst.isConfined.append ofSecond.isConfined,
    ofFirst.showsComponents.append ofSecond.showsComponents⟩

theorem AreWarnings.keepsTo {effects : List Effect} (areWarnings : AreWarnings effects)
    : KeepsTo destination effects :=
  ⟨.of_noTarget areWarnings.target?, areWarnings.showsComponents⟩

theorem Visit.IsInPlace.keepsTo (inPlace : here.IsInPlace destination)
    : KeepsTo destination (visit options volume drive here).effects := by
  refine ⟨inPlace.isConfined, ?_⟩
  intro line member
  rw [output_visit, List.mem_singleton] at member
  exact ⟨here.entry.names, inPlace.areComponents, member ▸ shows_path inPlace.areComponents⟩

/-- A step from visits in their places keeps to the destination and leads to such visits. -/
theorem Stage.IsInPlace.advance {stage : Stage} (inPlace : stage.IsInPlace destination)
    (options : Options)
    : KeepsTo destination (advance options stage).1
      ∧ (advance options stage).2.IsInPlace destination := by
  have quiet : KeepsTo destination [] := AreWarnings.keepsTo (by simp [AreWarnings])
  rcases stage with ⟨volume, drive, _ | ⟨here, queue⟩⟩ | status
  · exact ⟨quiet, trivial⟩
  · have hereInPlace := inPlace here (.head _)
    have kept : KeepsTo destination (visit options volume drive here).effects :=
      hereInPlace.keepsTo
    simp only [Extraction.advance]
    split
    · next effects visits after visited =>
        rw [visited] at kept
        refine ⟨kept, ?_⟩
        intro next member
        rcases List.mem_append.mp member with waiting | new
        · exact inPlace next (.tail _ waiting)
        · exact hereInPlace.of_visit (congrArg Visited.outcome visited) next new
    · next effects failure after visited =>
        rw [visited] at kept
        exact ⟨kept.append areWarnings_giveUp.keepsTo, trivial⟩
  · exact ⟨quiet, trivial⟩

/-- Steps keep to the destination, by induction on their number. -/
theorem Stage.IsInPlace.proceed {stage : Stage} (inPlace : stage.IsInPlace destination)
    (options : Options) (limit : Nat)
    : KeepsTo destination (proceed options limit stage).1 := by
  have quiet : KeepsTo destination [] := AreWarnings.keepsTo (by simp [AreWarnings])
  induction limit generalizing stage with
  | zero => cases stage <;> exact quiet
  | succ limit ih =>
      cases stage with
      | walking volume drive queue =>
          obtain ⟨kept, nextInPlace⟩ := inPlace.advance options
          exact kept.append (ih nextInPlace)
      | finished status => exact quiet

/-- Only the root directory is to be visited at the start, in the destination itself. -/
theorem isInPlace_enterRoot (options : Options) (volume : Volume Drive) (drive : Drive)
    : AreWarnings (enterRoot options volume drive).1
      ∧ (enterRoot options volume drive).2.IsInPlace options.destination := by
  simp only [enterRoot]
  split
  · next root log after observed =>
      refine ⟨areWarnings_of_observe observed, ?_⟩
      obtain ⟨record, rfl, -⟩ := Volume.root_ok (observe_eq_ok observed)
      intro here member
      obtain rfl := List.mem_singleton.mp member
      exact ⟨by simp [Entry.names], rfl⟩
  · next failure log after observed =>
      exact ⟨(areWarnings_of_observe observed).append areWarnings_giveUp, trivial⟩

/-- Opening an image prints one line and writes nothing. -/
theorem isInPlace_start (options : Options) (image : ImageAt)
    : ∃ others, (start options image).1 = .say ("Opening " ++ options.image) :: others
        ∧ AreWarnings others ∧ (start options image).2.IsInPlace options.destination := by
  cases image with
  | noFile | unreadable =>
      simp only [start]
      exact ⟨_, rfl, areWarnings_giveUp, trivial⟩
  | contents data =>
      rcases observed : observe options (openImage data) (freshDrive data) with
        ⟨outcome, log, after⟩
      have logged := areWarnings_of_observe observed
      cases outcome with
      | error failure =>
          rw [start_of_unopened observed]
          exact ⟨_, rfl, logged.append areWarnings_giveUp, trivial⟩
      | ok volume =>
          obtain ⟨areWarnings, inPlace⟩ := isInPlace_enterRoot options volume after
          rw [start_of_opened observed]
          exact ⟨_, rfl, logged.append areWarnings, inPlace⟩

/-- Whatever the image and for as long as extraction goes on, every directory that is made and
every file that is written is the destination itself or lies below it, where the components lead
that are shown by the line printed just before. The lines after the first one show nothing but
such components.
-/
theorem run_confined (options : Options) (image : ImageAt) (limit : Nat)
    : IsConfined options.destination (run options image limit).1
      ∧ ∃ lines, Effect.output (run options image limit).1
            = ("Opening " ++ options.image) :: lines
          ∧ ∀ line ∈ lines, ∃ names, (∀ name ∈ names, IsComponent name) ∧ Shows line names := by
  obtain ⟨others, startEq, areWarnings, inPlace⟩ := isInPlace_start options image
  have kept := areWarnings.keepsTo.append (inPlace.proceed options limit)
  have effectsEq : (run options image limit).1
      = [.say ("Opening " ++ options.image)]
        ++ (others ++ (proceed options limit (start options image).2).1) := by
    simp only [run, startEq, List.cons_append, List.nil_append]
  rw [effectsEq]
  refine ⟨IsConfined.append (.of_noTarget ?_) kept.isConfined, _, ?_, kept.showsComponents⟩
  · simp [Effect.target?]
  · rw [output_append]
    rfl

end DiscVolume.Extraction
