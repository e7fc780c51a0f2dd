import DiscVolume.Entry
import DiscVolume.Extraction.Host
import DiscVolume.Proofs.Directory.Traversal

/-! Names that are joined to a path one after the other lead to the place of the path and from
there through these names, as long as each of them is a component of its own.
-/

namespace DiscVolume

namespace HostPath

/-- A name that stands for one step down from the directory it is in. -/
structure IsComponent (name : String) : Prop where
  ne_empty : name ≠ ""
  ne_here : name ≠ "."
  ne_back : name ≠ ".."
  no_separator : separator ∉ name.toList
  no_nul : '\x00' ∉ name.toList

/-- A safe name that is not empty is a component. -/
theorem IsComponent.of_isSafeName {name : String} (isSafe : isSafeName name = true)
    (ne_empty : name ≠ "")
    : IsComponent name := by
  simp only [isSafeName, Bool.and_eq_true, decide_eq_true_eq, Bool.not_eq_true',
    List.contains_eq_mem, decide_eq_false_iff_not] at isSafe
  obtain ⟨⟨⟨ne_here, ne_back⟩, no_separator⟩, no_nul⟩ := isSafe
  exact { ne_empty, ne_here, ne_back, no_separator, no_nul }

variable {name : String}

/-- A component is the only part of itself. -/
theorem IsComponent.components_eq (isComponent : IsComponent name) : components name = [name] := by
  rw [components, List.splitOn, List.splitOnP_eq_singleton, List.map_singleton,
    String.ofList_toList]
  intro character member
  have other : character ≠ separator := fun same => isComponent.no_separator (same ▸ member)
  simp [other]

/-- The parts of two paths with a separator between them are those of the one and the other. -/
theorem components_append (front rest : String)
    : components (front ++ "/" ++ rest) = components front ++ components rest := by
  have letters : (front ++ "/" ++ rest).toList = front.toList ++ separator :: rest.toList := by
    simp [String.toList_append, separator]
  rw [components, letters, List.splitOn, List.splitOnP_append_cons _ _ (by simp),
    List.map_append]
  rfl

/-- Entering a component goes one step down. -/
theorem IsComponent.enter_eq (isComponent : IsComponent name) (place : List String)
    : enter place name = place ++ [name] := by
  rw [enter, if_neg (by simp [isComponent.ne_empty, isComponent.ne_here]),
    if_neg isComponent.ne_back]

/-- A component does not start at the root. -/
theorem IsComponent.not_isAbsolute (isComponent : IsComponent name) : isAbsolute name = false := by
  rw [isAbsolute, decide_eq_false_iff_not]
  intro first
  exact isComponent.no_separator (List.mem_of_head? first)

/-- A path that ends in a separator is a path with a separator behind it. -/
theorem eq_append_of_getLast? {directory : String}
    (ends : directory.toList.getLast? = some separator)
    : directory = String.ofList directory.toList.dropLast ++ "/" ++ "" := by
  have letters : directory.toList = directory.toList.dropLast ++ [separator] :=
    (List.dropLast_append_getLast? separator ends).symm
  rw [← String.toList_inj]
  simpa [String.toList_append, separator] using letters

/-- Joining a component leads one step down from the place of the directory. -/
theorem IsComponent.place_join (isComponent : IsComponent name) (directory : String)
    : place (join directory name) = place directory ++ [name] := by
  have down (front : String)
      : place (front ++ "/" ++ name) = place front ++ [name] := by
    rw [place, components_append, List.foldl_append, isComponent.components_eq]
    exact isComponent.enter_eq _
  rw [join, isComponent.not_isAbsolute, if_neg (by simp)]
  by_cases empty : directory = ""
  · subst empty
    have only : "" ++ name = name := by simp
    rw [if_pos (by rfl), only, place, isComponent.components_eq]
    exact isComponent.enter_eq []
  by_cases ends : directory.toList.getLast? = some separator
  · -- The separator at the end adds an empty part, which leads nowhere.
    have front := eq_append_of_getLast? ends
    rw [if_pos (by simp [ends])]
    generalize String.ofList directory.toList.dropLast = other at front
    subst front
    have same : other ++ "/" ++ "" ++ name = other ++ "/" ++ name := by simp
    rw [same, down, place, place, components_append, List.foldl_append]
    rfl
  · rw [if_neg (by simp [ends, empty])]
    exact down directory

/-- Joining a component to a path keeps where the path starts. -/
theorem IsComponent.isAbsolute_join (isComponent : IsComponent name) (directory : String)
    : isAbsolute (join directory name) = isAbsolute directory := by
  rw [join, isComponent.not_isAbsolute, if_neg (by simp)]
  by_cases empty : directory = ""
  · subst empty
    have only : "" ++ name = name := by simp
    rw [if_pos (by rfl), only, isComponent.not_isAbsolute]
    rfl
  · have notNil : directory.toList ≠ [] := by simpa using empty
    have first (rest : String) : isAbsolute (directory ++ rest) = isAbsolute directory := by
      rw [isAbsolute, isAbsolute, String.toList_append, List.head?_append_of_ne_nil _ notNil]
    split
    · exact first name
    · rw [String.append_assoc]
      exact first _

variable {names : List String}

/-- Components that are joined one after the other lead down through all of them. -/
theorem place_foldl_join (areComponents : ∀ name ∈ names, IsComponent name) (directory : String)
    : place (names.foldl join directory) = place directory ++ names := by
  induction names generalizing directory with
  | nil => simp
  | cons name others ih =>
      rw [List.foldl_cons, ih (fun other member => areComponents other (.tail _ member)),
        (areComponents name (.head _)).place_join, List.append_assoc, List.singleton_append]

theorem isAbsolute_foldl_join (areComponents : ∀ name ∈ names, IsComponent name)
    (directory : String)
    : isAbsolute (names.foldl join directory) = isAbsolute directory := by
  induction names generalizing directory with
  | nil => rfl
  | cons name others ih =>
      rw [List.foldl_cons, ih (fun other member => areComponents other (.tail _ member)),
        (areComponents name (.head _)).isAbsolute_join]

end HostPath

namespace Entry

/-- Below the root, the parts of the path of an entry are its names. -/
theorem components_path {entry : Entry} (notRoot : entry.isRoot = false)
    (areComponents : ∀ name ∈ entry.names, HostPath.IsComponent name)
    : HostPath.components entry.path = entry.names := by
  induction entry with
  | root => cases notRoot
  | child record identifier parent ih =>
      have last := (areComponents identifier.name (by simp [names])).components_eq
      rw [path_child]
      cases parentIsRoot : parent.isRoot with
      | true =>
          rw [if_pos rfl, last, names, names_eq_nil.mpr parentIsRoot, List.nil_append]
      | false =>
          rw [if_neg (by simp), HostPath.components_append, last, names,
            ih parentIsRoot (fun name member => areComponents name (by simp [names, member]))]

end Entry

end DiscVolume
