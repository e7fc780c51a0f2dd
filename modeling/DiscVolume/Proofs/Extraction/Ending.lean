import DiscVolume.Proofs.Extraction.Copying
import DiscVolume.Proofs.Extraction.Recorded

/-! When a walk that only lists comes to an end. Nothing is remembered of the entries that have
been visited, so it ends just if a directory cannot be read on the way, or the tree is finite.
-/

namespace DiscVolume.Extraction

variable {options : Options} {data : ByteArray} {volume : Volume Drive} {drive : Drive}

/-- A directory that cannot be read. -/
def isUnreadable (data : ByteArray) (volume : Volume Drive) (entry : Entry) : Bool :=
  entry.isDirectory
    && match found data (volume.readDirectory entry) with
      | .ok _ => false
      | .error _ => true

theorem isUnreadable_eq_true {entry : Entry}
    : isUnreadable data volume entry = true
      ↔ entry.isDirectory = true
        ∧ ∃ failure, found data (volume.readDirectory entry) = .error failure := by
  unfold isUnreadable
  cases found data (volume.readDirectory entry) <;> simp

/-- All entries but unreadable directories can be visited to be listed. -/
theorem canVisit_of_listsOnly {entry : Entry} (opens : Opens data volume drive)
    (listsOnly : options.listsOnly = true) (readable : isUnreadable data volume entry = false)
    : CanVisit options data volume entry (doings options data volume entry) := by
  cases isDirectory : entry.isDirectory with
  | false => exact canVisit_listed listsOnly isDirectory
  | true =>
      cases listed : found data (volume.readDirectory entry) with
      | ok children => exact canVisit_directory opens isDirectory listed
      | error failure => simp [isUnreadable, isDirectory, listed] at readable

/-- A finite tree is visited to its end. -/
theorem exists_status_zero (opens : Opens data volume drive) (readable : IsReadable data volume)
    (copyable : options.listsOnly = false → IsCopyable options data volume)
    (isAcyclic : IsAcyclic data volume)
    : ∃ limit, (run options (.contents data) limit).2 = some 0 := by
  obtain ⟨root, isRoot⟩ := readable.exists_root
  obtain ⟨depth, bottom⟩ := isAcyclic.exists_level_eq_nil isRoot
  obtain ⟨after, -, down⟩ := readable.takes_down opens copyable isRoot depth
  rw [bottom] at down
  have whole := down.trans (takes_empty options volume after)
  exact ⟨_, by rw [run_of_opens opens, whole 0, proceed]⟩

/-- A circle that can be read is visited for ever. -/
theorem status_eq_none (opens : Opens data volume drive) (readable : IsReadable data volume)
    (copyable : options.listsOnly = false → IsCopyable options data volume)
    (circular : ¬ IsAcyclic data volume) (limit : Nat)
    : (run options (.contents data) limit).2 = none := by
  obtain ⟨root, isRoot⟩ := readable.exists_root
  obtain ⟨after, -, down⟩ := readable.takes_down opens copyable isRoot limit
  have long : limit ≤ (levels (safeChildren data volume) limit [root]).length :=
    le_length_levels _ (level_ne_nil_of_not_isAcyclic opens isRoot circular)
  rw [run_of_opens opens]
  exact status_eq_none_of_takes down long

/-- What is done comes to a bad end: the last that is done is to report a verdict on the image. -/
def IsGivenUp (options : Options) (outcome : List Effect × Option Nat) : Prop :=
  outcome.2 = some 1 ∧ ∃ effects failure, Failure.IsVerdict failure
    ∧ outcome.1 = effects ++ [.warn ("Could not read " ++ options.image ++ ": " ++ failure.message)]

/-- A walk that comes to a report of a verdict is given up. -/
theorem isGivenUp_of_takes {steps : Nat} {effects : List Effect} {failure : Failure}
    (opens : Opens data volume drive) (isVerdict : failure.IsVerdict)
    (takes : Takes options steps (enterRoot options volume drive).2
      (effects ++ (giveUp options "read" failure.message).1) (.finished 1))
    : IsGivenUp options (run options (.contents data) steps) := by
  have ended := takes 0
  rw [Nat.add_zero, proceed, List.append_nil] at ended
  refine ⟨by rw [run_of_opens opens, ended], ?_⟩
  rw [run_of_opens opens, ended, ← List.append_assoc]
  exact ⟨_, failure, isVerdict, rfl⟩

/-- The first unreadable directory ends the walk. -/
theorem exists_isGivenUp_of_isUnreadable {root entry : Entry} (opens : Opens data volume drive)
    (listsOnly : options.listsOnly = true) (isRoot : found data volume.root = .ok root)
    (reached : IsReached data volume entry) (unreadable : isUnreadable data volume entry = true)
    : ∃ limit, IsGivenUp options (run options (.contents data) limit) := by
  -- The walk gets down to the first level with an unreadable directory.
  have onSome : ∃ depth, (level (safeChildren data volume) depth [root]).any
      (isUnreadable data volume) = true := by
    obtain ⟨depth, member⟩ := reached.exists_mem_level isRoot
    exact ⟨depth, List.any_eq_true.mpr ⟨entry, member, unreadable⟩⟩
  classical
  have first := Nat.find_spec onSome
  have before : ∀ depth < Nat.find onSome, ∀ entry ∈ level (safeChildren data volume) depth [root],
      isUnreadable data volume entry = false := by
    intro depth lower entry member
    rw [← Bool.not_eq_true]
    exact fun unreadable =>
      Nat.find_min onSome lower (List.any_eq_true.mpr ⟨entry, member, unreadable⟩)
  generalize Nat.find onSome = depth at first before
  obtain ⟨entered, holds, down⟩ := takes_down opens isRoot (fun entry member => by
      obtain ⟨above, lower, onLevel⟩ := (mem_levels _).mp member
      exact canVisit_of_listsOnly opens listsOnly (before above lower entry onLevel))
  -- On this level it gets to the first unreadable directory.
  obtain ⟨entry, isFirst⟩ := Option.isSome_iff_exists.mp (List.find?_isSome.mpr
    (List.any_eq_true.mp first))
  obtain ⟨unreadable, front, rest, levelEq, readable⟩ := List.find?_eq_some_iff_append.mp isFirst
  obtain ⟨isDirectory, failure, unlisted⟩ := isUnreadable_eq_true.mp unreadable
  obtain ⟨arrived, holds, along⟩ := takes_line (entry :: rest)
    (fun other member => canVisit_of_listsOnly opens listsOnly
      (by simpa using readable other member)) holds
  obtain ⟨effects, failure, isVerdict, ended⟩ :=
    takes_failure (rest ++ front.flatMap (safeChildren data volume))
      (cannotVisit_directory options opens isDirectory unlisted) holds
  rw [levelEq] at down
  have whole := (down.trans along).trans ended
  rw [← List.append_assoc] at whole
  exact ⟨_, isGivenUp_of_takes opens isVerdict whole⟩

/-- What cannot all be read is given up. -/
theorem exists_isGivenUp (opens : Opens data volume drive) (listsOnly : options.listsOnly = true)
    (unreadable : ¬ IsReadable data volume)
    : ∃ limit, IsGivenUp options (run options (.contents data) limit) := by
  cases isRoot : found data volume.root with
  | error failure =>
      obtain ⟨isVerdict, enterEq⟩ := enterRoot_of_error options opens isRoot
      refine ⟨0, ?_, ?_⟩
      · rw [run_of_opens opens, enterEq, proceed]
      · rw [run_of_opens opens, enterEq, proceed, List.append_nil]
        exact ⟨_, failure, isVerdict, rfl⟩
  | ok root =>
      by_contra endless
      refine unreadable ⟨⟨root, isRoot⟩, fun directory reached isDirectory => ?_⟩
      cases listed : found data (volume.readDirectory directory) with
      | ok children => exact ⟨children, rfl⟩
      | error failure =>
          refine absurd ?_ endless
          exact exists_isGivenUp_of_isUnreadable opens listsOnly isRoot reached
            (isUnreadable_eq_true.mpr ⟨isDirectory, failure, listed⟩)

-----------------------------------------------------------------------------------------
-- A tree and a circle
-----------------------------------------------------------------------------------------

/-- A small tree: the root directory has a directory, an entry whose name cannot be used and a file,
and the file is in the other directory as well.
-/
def treePlan : Plan where
  blocks := [5, 6, 7]
  typeAt block := if block = 7 then 5 else IcbTag.directoryType
  dataAt block :=
    if block = 5 then
      (FileIdentifier.plainSpelling [100] 6 (by decide)).bytes
        ++ ((FileIdentifier.plainSpelling [46, 46] 7 (by decide)).bytes
          ++ ((FileIdentifier.plainSpelling [101] 7 (by decide)).bytes ++ []))
    else if block = 6 then (FileIdentifier.plainSpelling [97] 7 (by decide)).bytes ++ []
    else [1, 2, 3]
  recordsAt block :=
    if block = 5 then [.plain [100] 6, .plain [46, 46] 7, .plain [101] 7]
    else if block = 6 then [.plain [97] 7]
    else []

set_option maxRecDepth 20000 in
/-- The directories of the tree only list what is at later blocks. -/
theorem treePlan_leads : ∀ block ∈ treePlan.blocks,
    ∀ identifier ∈ Volume.named (treePlan.recordsAt block),
      block < identifier.icb.block ∧ identifier.icb.block ∈ treePlan.blocks := by
  intro block planned
  simp only [treePlan, List.mem_cons, List.not_mem_nil, or_false] at planned
  rcases planned with rfl | rfl | rfl
  all_goals decide

set_option maxRecDepth 20000 in
theorem treePlan_isSound : treePlan.IsSound where
  like := by decide
  decoded block planned := by
    simp only [treePlan, List.mem_cons, List.not_mem_nil, or_false] at planned
    rcases planned with rfl | rfl | rfl
    all_goals exact ⟨by decide, rfl⟩
  root_mem := by decide
  spells block planned isDirectory := by
    simp only [treePlan, List.mem_cons, List.not_mem_nil, or_false] at planned
    rcases planned with rfl | rfl | rfl
    · exact .cons _ (.cons _ (.cons _ .nil))
    · exact .cons _ .nil
    · cases isDirectory
  leads block planned identifier recorded := (treePlan_leads block planned identifier recorded).2

theorem treePlan_isAcyclic (isOpen : treePlan.IsOpen volume drive)
    : IsAcyclic treePlan.image volume :=
  isOpen.isAcyclic treePlan_isSound (fun block planned identifier recorded =>
    (treePlan_leads block planned identifier recorded).1)

/-- A directory that lists itself under the name "a". -/
def circlePlan : Plan where
  blocks := [5]
  typeAt _ := IcbTag.directoryType
  dataAt _ := (FileIdentifier.plainSpelling [97] 5 (by decide)).bytes ++ []
  recordsAt _ := [.plain [97] 5]

set_option maxRecDepth 20000 in
theorem circlePlan_isSound : circlePlan.IsSound where
  like := by decide
  decoded block planned := by
    obtain rfl := List.mem_singleton.mp planned
    exact ⟨by decide, rfl⟩
  root_mem := by decide
  spells _ _ _ := .cons _ .nil
  leads block planned := by
    obtain rfl := List.mem_singleton.mp planned
    decide

/-- The root directory is below itself. -/
theorem circlePlan_not_isAcyclic (isOpen : circlePlan.IsOpen volume drive)
    : ¬ IsAcyclic circlePlan.image volume := by
  have isRoot := isOpen.found_root circlePlan_isSound
  have children : safeChildren circlePlan.image volume
      (.root (circlePlan.entryAt 5) volume.logical.identifier)
        = [.child (circlePlan.entryAt 5) (.plain [97] 5)
            (.root (circlePlan.entryAt 5) volume.logical.identifier)] :=
    isOpen.safeChildren_eq circlePlan_isSound circlePlan_isSound.root_mem rfl rfl
  have isChild := List.mem_singleton_self
    (Entry.child (circlePlan.entryAt 5) (.plain [97] 5)
      (.root (circlePlan.entryAt 5) volume.logical.identifier))
  rw [← children] at isChild
  exact fun isAcyclic =>
    isAcyclic _ _ (.root isRoot) (.single isChild) isOpen.rootBlock.symm

-----------------------------------------------------------------------------------------
-- The end
-----------------------------------------------------------------------------------------

/-- From an image that is opened, listing comes to a good end if all directories can be read that
are reached through safe names and none of them comes up again below itself. It is given up with
a verdict on the image if one of them cannot be read, or there is no root. Otherwise it goes on
for ever.
-/
theorem listing_ends_iff (opens : Opens data volume drive) (listsOnly : options.listsOnly = true)
    : ((∃ limit, (run options (.contents data) limit).2 = some 0)
        ↔ IsReadable data volume ∧ IsAcyclic data volume)
      ∧ ((∃ limit, IsGivenUp options (run options (.contents data) limit))
        ↔ ¬ IsReadable data volume)
      ∧ ((∀ limit, (run options (.contents data) limit).2 = none)
        ↔ IsReadable data volume ∧ ¬ IsAcyclic data volume) := by
  have unique : ∀ first second status other,
      (run options (.contents data) first).2 = some status
      → (run options (.contents data) second).2 = some other → status = other := by
    intro first second status other
    simp only [run_of_opens opens]
    exact status_unique
  have ends : ∀ limit status, (run options (.contents data) limit).2 = some status
      → ¬ ∀ limit, (run options (.contents data) limit).2 = none := by
    intro limit status ended endless
    rw [endless limit] at ended
    cases ended
  -- Nothing needs to be copied.
  have copyable : options.listsOnly = false → IsCopyable options data volume := by
    simp [listsOnly]
  by_cases readable : IsReadable data volume
  · by_cases isAcyclic : IsAcyclic data volume
    · obtain ⟨limit, ended⟩ := exists_status_zero opens readable copyable isAcyclic
      refine ⟨iff_of_true ⟨limit, ended⟩ ⟨readable, isAcyclic⟩,
        iff_of_false ?_ (not_not.mpr readable),
        iff_of_false (ends limit 0 ended) (fun both => both.2 isAcyclic)⟩
      rintro ⟨other, endedOther, -⟩
      cases unique _ _ _ _ ended endedOther
    · have endless := status_eq_none opens readable copyable isAcyclic
      exact ⟨iff_of_false (fun ⟨limit, ended⟩ => ends limit 0 ended endless)
          (fun both => isAcyclic both.2),
        iff_of_false (fun ⟨limit, givenUp⟩ => ends limit 1 givenUp.1 endless)
          (not_not.mpr readable),
        iff_of_true endless ⟨readable, isAcyclic⟩⟩
  · obtain ⟨limit, givenUp⟩ := exists_isGivenUp opens listsOnly readable
    refine ⟨iff_of_false ?_ (fun both => readable both.1), iff_of_true ⟨limit, givenUp⟩ readable,
      iff_of_false (ends limit 1 givenUp.1) (fun both => readable both.1)⟩
    rintro ⟨other, endedOther⟩
    cases unique _ _ _ _ givenUp.1 endedOther

/-- The tree is listed to its end. -/
theorem listing_ends_iff_tree
    : ∃ volume drive, Opens treePlan.image volume drive
        ∧ ∃ limit, (run { listsOnly := true, image := "tree" } (.contents treePlan.image) limit).2
          = some 0 := by
  obtain ⟨volume, drive, isOpen⟩ := treePlan_isSound.exists_isOpen
  refine ⟨volume, drive, isOpen.opens, ?_⟩
  exact (listing_ends_iff isOpen.opens rfl).1.mpr
    ⟨isOpen.isReadable treePlan_isSound, treePlan_isAcyclic isOpen⟩

/-- An image can be opened and listed for ever. -/
theorem circlePlan_endless
    : ∃ volume drive, Opens circlePlan.image volume drive
        ∧ ∀ limit,
          (run { listsOnly := true, image := "circle" } (.contents circlePlan.image) limit).2
            = none := by
  obtain ⟨volume, drive, isOpen⟩ := circlePlan_isSound.exists_isOpen
  exact ⟨volume, drive, isOpen.opens, status_eq_none isOpen.opens
    (isOpen.isReadable circlePlan_isSound) nofun (circlePlan_not_isAcyclic isOpen)⟩

end DiscVolume.Extraction
