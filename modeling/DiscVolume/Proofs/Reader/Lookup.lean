import DiscVolume.Proofs.Directory.Siblings
import DiscVolume.Proofs.Extraction.Ending
import DiscVolume.Proofs.Volume.FileContents

/-! Paths and looking them up undo each other. On the way down through directories that list one
entry after the other, the path of an entry collects the names, and to look up a path is to go
this way again, however many slashes stand between the names.
-/

namespace DiscVolume

open Sequencing

-----------------------------------------------------------------------------------------
-- The names in a path
-----------------------------------------------------------------------------------------

/-- A path leads through names: each is a stretch without slashes, and slashes stand between them
and perhaps at both ends.
-/
inductive LeadsThrough : List Char → List String → Prop where
  | done : LeadsThrough [] []
  | slash {rest : List Char} {names : List String} (others : LeadsThrough rest names)
      : LeadsThrough ('/' :: rest) names
  | last {name : List Char} (ne_nil : name ≠ []) (no_slash : '/' ∉ name)
      : LeadsThrough name [String.ofList name]
  | step {name rest : List Char} {names : List String} (ne_nil : name ≠ [])
      (no_slash : '/' ∉ name) (others : LeadsThrough rest names)
      : LeadsThrough (name ++ '/' :: rest) (String.ofList name :: names)

namespace Volume

/-- The parts of characters between slashes that are not empty. -/
private def partsOf (path : List Char) : List (List Char) :=
  (path.splitOn '/').filter (!·.isEmpty)

private theorem partsOf_eq_singleton {name : List Char} (ne_nil : name ≠ [])
    (no_slash : '/' ∉ name)
    : partsOf name = [name] := by
  have whole : name.splitOn '/' = [name] := by
    refine List.splitOnP_eq_singleton (fun character member => ?_)
    simpa using fun same : character = '/' => no_slash (same ▸ member)
  rw [partsOf, whole, List.filter_cons_of_pos (by simpa using ne_nil), List.filter_nil]

private theorem partsOf_append (front rest : List Char)
    : partsOf (front ++ '/' :: rest) = partsOf front ++ partsOf rest := by
  rw [partsOf, List.splitOn, List.splitOnP_append_cons _ _ (by simp), List.filter_append]
  rfl

end Volume

namespace LeadsThrough

variable {path : List Char} {names : List String}

/-- A path leads through its components. -/
theorem components_eq (leads : LeadsThrough path names)
    : Volume.components (String.ofList path) = names := by
  rw [Volume.components, String.toList_ofList]
  change (Volume.partsOf path).map String.ofList = names
  induction leads with
  | done => rfl
  | @slash rest names others ih =>
      have front := Volume.partsOf_append [] rest
      rw [List.nil_append] at front
      rw [front, List.map_append, ih]
      rfl
  | last ne_nil no_slash => rw [Volume.partsOf_eq_singleton ne_nil no_slash, List.map_singleton]
  | step ne_nil no_slash others ih =>
      rw [Volume.partsOf_append, Volume.partsOf_eq_singleton ne_nil no_slash, List.map_append, ih,
        List.map_singleton, List.singleton_append]

/-- Every path leads through some names. -/
theorem exists_names (path : List Char) : ∃ names, LeadsThrough path names := by
  induction length : path.length using Nat.strong_induction_on generalizing path with
  | _ _ ih =>
      subst length
      by_cases hasSlash : '/' ∈ path
      · obtain ⟨front, rest, rfl, no_slash⟩ := List.eq_append_cons_of_mem hasSlash
        obtain ⟨names, others⟩ := ih rest.length (by simp; omega) rest rfl
        by_cases empty : front = []
        · subst empty
          exact ⟨names, .slash others⟩
        · exact ⟨_, .step empty no_slash others⟩
      · by_cases empty : path = []
        · subst empty
          exact ⟨[], .done⟩
        · exact ⟨_, .last empty hasSlash⟩

/-- Names with slashes between them lead through themselves, unless one is empty or has slashes of
its own.
-/
theorem intercalate (areNames : ∀ name ∈ names, name ≠ "" ∧ '/' ∉ name.toList)
    : LeadsThrough (String.intercalate "/" names).toList names := by
  induction names with
  | nil => exact .done
  | cons name others ih =>
      obtain ⟨⟨ne_empty, no_slash⟩, areOthers⟩ := List.forall_mem_cons.mp areNames
      have ne_nil : name.toList ≠ [] := by simpa using ne_empty
      have same : String.ofList name.toList = name := String.ofList_toList
      cases others with
      | nil =>
          rw [String.intercalate_singleton]
          have alone := LeadsThrough.last ne_nil no_slash
          rwa [same] at alone
      | cons next others =>
          have split := String.intercalate_append_of_ne_nil (l := [name]) (m := next :: others)
            (s := "/") (by simp) (by simp)
          have letters : (String.intercalate "/" (name :: next :: others)).toList
              = name.toList ++ '/' :: (String.intercalate "/" (next :: others)).toList := by
            rw [← List.singleton_append, split, String.intercalate_singleton]
            simp [String.toList_append]
          have behind := LeadsThrough.step ne_nil no_slash (ih areOthers)
          rwa [same, ← letters] at behind

end LeadsThrough

/-- The components of a path are the names that it leads through. -/
theorem Volume.components_eq_iff {path : String} {names : List String}
    : components path = names ↔ LeadsThrough path.toList names := by
  constructor
  · rintro rfl
    obtain ⟨names, leads⟩ := LeadsThrough.exists_names path.toList
    have same := leads.components_eq
    rw [String.ofList_toList] at same
    rwa [same]
  · intro leads
    have same := leads.components_eq
    rwa [String.ofList_toList] at same

-----------------------------------------------------------------------------------------
-- Names on the way down
-----------------------------------------------------------------------------------------

namespace Entry

/-- A child has one more name on the way to it than its parent. -/
theorem IsChildOf.names_eq {child parent : Entry} (isChild : child.IsChildOf parent)
    : child.names = parent.names ++ [child.name] := by
  obtain ⟨record, identifier, rfl, -⟩ := isChild
  rfl

theorem IsChildOf.parent?_eq {child parent : Entry} (isChild : child.IsChildOf parent)
    : child.parent? = some parent := by
  obtain ⟨record, identifier, rfl, -⟩ := isChild
  rfl

theorem IsChildOf.isRoot_eq {child parent : Entry} (isChild : child.IsChildOf parent)
    : child.isRoot = false := by
  obtain ⟨record, identifier, rfl, -⟩ := isChild
  rfl

/-- Where each entry is a child of the one before it, the names on the way to the last are those of
all below the first, by induction on the entries.
-/
theorem names_getLastD {first : Entry} {below : List Entry}
    (children : List.IsChain (fun parent child => child.IsChildOf parent) (first :: below))
    : (below.getLastD first).names = first.names ++ below.map Entry.name := by
  induction below generalizing first with
  | nil => simp
  | cons child below ih =>
      obtain ⟨isChild, children⟩ := List.isChain_cons_cons.mp children
      rw [List.getLastD_cons, ih children, isChild.names_eq, List.map_cons, List.append_assoc,
        List.singleton_append]

end Entry

-----------------------------------------------------------------------------------------
-- Following names
-----------------------------------------------------------------------------------------

namespace Volume

variable {volume : Volume σ} {ready : σ → Prop} {parent entry : Entry} {medium after : σ}

/-- Reading a directory of an unchanging image is steady. -/
theorem readDirectory_isSteady (unchanging : volume.source.IsUnchanging ready) (parent : Entry)
    : (volume.readDirectory parent).IsSteady ready := by
  unfold readDirectory
  split
  · exact .throw _
  · refine (entriesFor_isSteady unchanging.isSteady parent).blaming.bind (fun entries => ?_)
    exact .bind ⟨_, unchanging.tell_answers _⟩ (fun _ => .pure entries)

/-- The names that are followed are those behind the names of the entry where that starts, by
induction on the names.
-/
theorem names_of_follow {path : String} {names : List String}
    (found : volume.follow path parent names medium = .ok entry after)
    : entry.names = parent.names ++ names := by
  induction names generalizing parent medium with
  | nil =>
      cases found
      rw [List.append_nil]
  | cons name others ih =>
      obtain ⟨entries, middle, next, -, listed, sought, rest⟩ := follow_cons_ok found
      have isChild := children_of_readDirectory listed next (List.mem_of_find?_eq_some sought)
      have sameName : next.name = name := by simpa using List.find?_some sought
      rw [ih rest, isChild.names_eq, sameName, List.append_assoc, List.singleton_append]

end Volume

-----------------------------------------------------------------------------------------
-- Ways
-----------------------------------------------------------------------------------------

namespace Reader

/-- On some ready medium, a reader finds a value while the volume is open. -/
def Finds (volume : Volume σ) (ready : σ → Prop) (step : Using σ α) (value : α) : Prop :=
  ∃ medium after, ready medium ∧ step ({ volume := some volume }, medium) = .ok value after

/-- An entry is among those that are found in a directory. -/
def Lists (volume : Volume σ) (ready : σ → Prop) (parent child : Entry) : Prop :=
  ∃ entries, Finds volume ready (readDirectory parent) entries ∧ child ∈ entries

/-- An entry is the first of its name among those that are found in a directory. -/
def ListsFirst (volume : Volume σ) (ready : σ → Prop) (parent child : Entry) : Prop :=
  ∃ before behind, Finds volume ready (readDirectory parent) (before ++ child :: behind)
    ∧ ∀ other ∈ before, other.name ≠ child.name

/-- A way down from the root directory: each entry is listed in the one before it. -/
structure IsWay (volume : Volume σ) (ready : σ → Prop) (root : Entry) (below : List Entry)
    : Prop where
  root_found : Finds volume ready Reader.root root
  listed : List.IsChain (Lists volume ready) (root :: below)

/-- Only the first entry is a root, and each of the others has the one before it for its parent. -/
structure IsLineage (root : Entry) (below : List Entry) : Prop where
  isRoot : root.isRoot = true
  not_isRoot : ∀ entry ∈ below, entry.isRoot = false
  parents : List.IsChain (fun parent child => child.parent? = some parent) (root :: below)

variable {volume : Volume σ} {ready : σ → Prop} {root parent child entry : Entry}
variable {below : List Entry} {medium : σ} {path : String}

/-- With a volume open, a reader finds on the medium what the volume finds there. -/
theorem onOpened_eq_ok {step : Volume σ → Access σ α} {value : α} {after : Reader σ × σ}
    : (opened >>= fun volume => onMedium (step volume)) ({ volume := some volume }, medium)
        = .ok value after
      ↔ ∃ later, step volume medium = .ok value later
          ∧ after = ({ volume := some volume }, later) := by
  rw [bind_of_ok (opened_of_held rfl), onMedium]
  cases step volume medium with
  | ok found later => simp [eq_comm]
  | error failure later => simp

/-- What a volume finds on data from which nothing has been read, a reader finds with it. -/
theorem finds_of_found {data : ByteArray} {volume : Volume Extraction.Drive}
    {step : Volume Extraction.Drive → Access Extraction.Drive α} {value : α}
    (found : Extraction.found data (step volume) = .ok value)
    : Finds volume (Extraction.Drive.Holds data)
        (opened >>= fun volume => onMedium (step volume)) value := by
  obtain ⟨after, answer⟩ := Extraction.found_eq_ok.mp found
  exact ⟨Extraction.freshDrive data, _, .fresh data, onOpened_eq_ok.mpr ⟨after, answer, rfl⟩⟩

theorem Lists.isChildOf (lists : Lists volume ready parent child) : child.IsChildOf parent := by
  obtain ⟨entries, ⟨medium, after, -, found⟩, member⟩ := lists
  obtain ⟨later, listed, -⟩ := onOpened_eq_ok.mp found
  exact Volume.children_of_readDirectory listed child member

theorem ListsFirst.lists (first : ListsFirst volume ready parent child)
    : Lists volume ready parent child := by
  obtain ⟨before, behind, found, -⟩ := first
  exact ⟨_, found, by simp⟩

theorem IsWay.children (way : IsWay volume ready root below)
    : List.IsChain (fun parent child => child.IsChildOf parent) (root :: below) :=
  way.listed.imp (fun _ _ => Lists.isChildOf)

theorem IsWay.isRoot (way : IsWay volume ready root below) : root.isRoot = true := by
  obtain ⟨medium, after, -, found⟩ := way.root_found
  obtain ⟨later, found, -⟩ := onOpened_eq_ok.mp found
  obtain ⟨record, rfl, -⟩ := Volume.root_ok found
  rfl

/-- All entries of a chain but the first are in relation to the one before them. -/
private theorem exists_of_mem_of_isChain {relation : Entry → Entry → Prop} {first : Entry}
    (chain : List.IsChain relation (first :: below))
    : ∀ entry ∈ below, ∃ before, relation before entry := by
  induction below generalizing first with
  | nil => nofun
  | cons next below ih =>
      obtain ⟨related, chain⟩ := List.isChain_cons_cons.mp chain
      exact List.forall_mem_cons.mpr ⟨⟨first, related⟩, ih chain⟩

/-- A way down is a line of parents and children. -/
theorem IsWay.isLineage (way : IsWay volume ready root below) : IsLineage root below where
  isRoot := way.isRoot
  not_isRoot entry member := by
    obtain ⟨parent, isChild⟩ := exists_of_mem_of_isChain way.children entry member
    exact isChild.isRoot_eq
  parents := way.children.imp (fun _ _ isChild => isChild.parent?_eq)

/-- The path of the last entry of a way is made of the names below the root. -/
theorem IsWay.path_eq (way : IsWay volume ready root below)
    : (below.getLastD root).path = String.intercalate "/" (below.map Entry.name) := by
  rw [Entry.path_eq, Entry.names_getLastD way.children, Entry.names_eq_nil.mpr way.isRoot,
    List.nil_append]

/-- Where each entry is the first of its name, following the names leads to the last of them, by
induction on the entries.
-/
theorem follow_eq_ok (path : String) (unchanging : volume.source.IsUnchanging ready)
    (isReady : ready medium)
    (first : List.IsChain (ListsFirst volume ready) (parent :: below))
    : ∃ later, ready later
        ∧ volume.follow path parent (below.map Entry.name) medium
          = .ok (below.getLastD parent) later := by
  induction below generalizing parent medium with
  | nil => exact ⟨medium, isReady, rfl⟩
  | cons child below ih =>
      obtain ⟨⟨before, behind, ⟨other, after, readyOther, found⟩, others⟩, first⟩ :=
        List.isChain_cons_cons.mp first
      obtain ⟨later, listed, -⟩ := onOpened_eq_ok.mp found
      obtain ⟨isDirectory, -⟩ := Volume.readDirectory_ok_iff.mp listed
      -- The directory lists on this medium what it listed on the other.
      obtain ⟨middle, readyMiddle, listed⟩ := (Volume.readDirectory_isSteady unchanging
        parent).answers_of_ok readyOther listed medium isReady
      have sought : (before ++ child :: behind).find? (·.name == child.name) = some child :=
        List.find?_eq_some_iff_append.mpr
          ⟨by simp, before, behind, rfl, fun entry member => by simpa using others entry member⟩
      obtain ⟨last, readyLast, found⟩ := ih readyMiddle first
      refine ⟨last, readyLast, ?_⟩
      rw [List.map_cons, Volume.follow_of_present isDirectory listed sought, List.getLastD_cons]
      exact found

/-- Where each entry is the first of its name, looking up a path through the names finds the last of
them.
-/
theorem IsWay.lookup_eq_ok (way : IsWay volume ready root below)
    (unchanging : volume.source.IsUnchanging ready) (isReady : ready medium)
    (first : List.IsChain (ListsFirst volume ready) (root :: below))
    (leads : LeadsThrough path.toList (below.map Entry.name))
    : ∃ later, ready later
        ∧ lookup path ({ volume := some volume }, medium)
          = .ok (below.getLastD root) ({ volume := some volume }, later) := by
  obtain ⟨other, after, readyOther, found⟩ := way.root_found
  obtain ⟨_, found, -⟩ := onOpened_eq_ok.mp found
  obtain ⟨middle, readyMiddle, found⟩ := (Volume.root_isSteady unchanging.isSteady).answers_of_ok
    readyOther found medium isReady
  obtain ⟨later, readyLater, followed⟩ := follow_eq_ok path unchanging readyMiddle first
  refine ⟨later, readyLater, onOpened_eq_ok.mpr ⟨later, ?_, rfl⟩⟩
  rw [Volume.lookup, bind_of_ok found, Volume.components_eq_iff.mpr leads]
  exact followed

/-- What is found when a path is looked up has the names of that path. -/
theorem names_of_lookup {after : Reader σ × σ}
    (found : lookup path ({ volume := some volume }, medium) = .ok entry after)
    : LeadsThrough path.toList entry.names := by
  obtain ⟨_, found, -⟩ := onOpened_eq_ok.mp found
  obtain ⟨root, _, isRoot, followed⟩ := bind_ok_iff.mp found
  obtain ⟨record, rfl, -⟩ := Volume.root_ok isRoot
  rw [Volume.names_of_follow followed, Entry.names, List.nil_append]
  exact Volume.components_eq_iff.mp rfl

/-- Where each entry is the first of its name and no name has slashes, the last entry of a way is
found at its own path.
-/
theorem IsWay.lookup_path (way : IsWay volume ready root below)
    (unchanging : volume.source.IsUnchanging ready) (isReady : ready medium)
    (first : List.IsChain (ListsFirst volume ready) (root :: below))
    (no_slash : ∀ entry ∈ below, '/' ∉ entry.name.toList)
    : ∃ later, ready later
        ∧ lookup (below.getLastD root).path ({ volume := some volume }, medium)
          = .ok (below.getLastD root) ({ volume := some volume }, later) := by
  refine way.lookup_eq_ok unchanging isReady first ?_
  rw [way.path_eq]
  refine LeadsThrough.intercalate (List.forall_mem_map.mpr (fun entry member => ?_))
  obtain ⟨parent, isChild⟩ := exists_of_mem_of_isChain way.children entry member
  exact ⟨isChild.name_ne_empty, no_slash entry member⟩

/-- Paths and looking them up agree. A way down from the root is a line of parents and children,
and the path of its last entry is made of their names. If each entry is the first of its name,
all paths that lead through the names lead to the last entry; and whatever is found at a path has
the names of the path for its own.
-/
theorem lookup_agrees_with_paths (unchanging : volume.source.IsUnchanging ready)
    : (∀ root below, IsWay volume ready root below
        → IsLineage root below
          ∧ (below.getLastD root).path = String.intercalate "/" (below.map Entry.name)
          ∧ (List.IsChain (ListsFirst volume ready) (root :: below)
            → ∀ path, LeadsThrough path.toList (below.map Entry.name)
              → ∀ medium, ready medium
                → ∃ later, ready later
                  ∧ lookup path ({ volume := some volume }, medium)
                    = .ok (below.getLastD root) ({ volume := some volume }, later)))
      ∧ ∀ path medium entry after,
          lookup path ({ volume := some volume }, medium) = .ok entry after
          → ∃ names, LeadsThrough path.toList names
            ∧ entry.path = String.intercalate "/" names := by
  refine ⟨fun root below way => ⟨way.isLineage, way.path_eq, ?_⟩, ?_⟩
  · intro first path leads medium isReady
    exact way.lookup_eq_ok unchanging isReady first leads
  · intro path medium entry after found
    exact ⟨entry.names, names_of_lookup found, entry.path_eq⟩

open Extraction in
set_option maxRecDepth 20000 in
/-- In a small tree the file "a" in the directory "d" is found, in spite of surplus slashes, and has
the path "d/a".
-/
theorem lookup_agrees_with_paths_tree
    : ∃ volume drive, Opens treePlan.image volume drive
        ∧ volume.source.IsUnchanging (Drive.Holds treePlan.image)
        ∧ ∃ entry later,
            lookup "//d///a/" ({ volume := some volume }, drive)
              = .ok entry ({ volume := some volume }, later)
            ∧ entry.path = "d/a" := by
  obtain ⟨volume, drive, isOpen⟩ := treePlan_isSound.exists_isOpen
  have unchanging : volume.source.IsUnchanging (Drive.Holds treePlan.image) :=
    isOpen.opens.source_eq ▸ Drive.source_isUnchanging treePlan.image treePlan.image.size
  let root : Entry := .root (treePlan.entryAt 5) volume.logical.identifier
  let directory : Entry := .child (treePlan.entryAt 6) (.plain [100] 6) root
  let file : Entry := .child (treePlan.entryAt 7) (.plain [97] 7) directory
  have fifth : (5 : UInt32) ∈ treePlan.blocks := by decide
  have sixth : (6 : UInt32) ∈ treePlan.blocks := by decide
  have rootFound : Finds volume (Drive.Holds treePlan.image) Reader.root root :=
    finds_of_found (isOpen.found_root treePlan_isSound)
  have inRoot : ListsFirst volume (Drive.Holds treePlan.image) root directory :=
    ⟨[], _, finds_of_found (isOpen.found_readDirectory treePlan_isSound fifth rfl rfl), by simp⟩
  have inDirectory : ListsFirst volume (Drive.Holds treePlan.image) directory file :=
    ⟨[], _, finds_of_found (isOpen.found_readDirectory treePlan_isSound sixth rfl rfl), by simp⟩
  have first : List.IsChain (ListsFirst volume (Drive.Holds treePlan.image))
      [root, directory, file] :=
    .cons_cons inRoot (.cons_cons inDirectory (.singleton file))
  have leads : LeadsThrough "//d///a/".toList ["d", "a"] := Volume.components_eq_iff.mp (by decide)
  obtain ⟨agrees, -⟩ := lookup_agrees_with_paths unchanging
  obtain ⟨-, path_eq, finds⟩ := agrees root [directory, file]
    ⟨rootFound, first.imp (fun _ _ => ListsFirst.lists)⟩
  obtain ⟨later, -, looked⟩ := finds first "//d///a/" leads drive isOpen.opens.holds
  have joined : String.intercalate "/" ["d", "a"] = "d/a" := by decide
  exact ⟨volume, drive, isOpen.opens, unchanging, file, later, looked, path_eq.trans joined⟩

end Reader

end DiscVolume
