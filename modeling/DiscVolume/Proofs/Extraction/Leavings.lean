import DiscVolume.Proofs.Extraction.Paths
import DiscVolume.Proofs.Extraction.Steps
import Mathlib.Data.List.Induction

/-! What effects leave behind. A file holds what was written to it last, and making a directory
changes nothing that is there.
-/

namespace DiscVolume

-----------------------------------------------------------------------------------------
-- Places and how they are written
-----------------------------------------------------------------------------------------

namespace HostPath

/-- What is split at separators has none left in it, by induction on the characters. -/
theorem separator_not_mem_of_mem_splitOn {characters part : List Char}
    (member : part ∈ characters.splitOn separator)
    : separator ∉ part := by
  induction characters generalizing part with
  | nil =>
      rw [List.splitOn_nil, List.mem_singleton] at member
      simp [member]
  | cons first rest ih =>
      rw [List.splitOn_cons_eq_if_modifyHead] at member
      split at member
      · rcases List.mem_cons.mp member with rfl | behind
        · exact List.not_mem_nil
        · exact ih behind
      · next other =>
          rcases parts : rest.splitOn separator with _ | ⟨head, others⟩
          · rw [parts] at member
            cases member
          · rw [parts] at member ih
            rcases List.mem_cons.mp member with rfl | behind
            · refine List.not_mem_cons_of_ne_of_not_mem (fun same => other ?_) (ih (.head _))
              rw [same, beq_self_eq_true]
            · exact ih (.tail _ behind)

/-- The names of a place are parts of the path that leads there. -/
theorem mem_of_mem_place {path name : String} (member : name ∈ place path)
    : name ∈ components path := by
  have among : ∀ parts start : List String, name ∈ parts.foldl enter start
      → name ∈ start ∨ name ∈ parts := by
    intro parts
    induction parts with
    | nil => exact fun start found => .inl found
    | cons part others ih =>
        intro start found
        rcases ih _ found with entered | later
        · have near : name ∈ start ∨ name = part := by
            unfold enter at entered
            split at entered
            · exact .inl entered
            · split at entered
              · split at entered
                · simpa using entered
                · exact .inl (List.dropLast_subset _ entered)
              · simpa using entered
          rcases near with before | rfl
          · exact .inl before
          · exact .inr (.head _)
        · exact .inr (.tail _ later)
  rcases among _ _ member with nowhere | found
  · cases nowhere
  · exact found

theorem separator_not_mem_of_mem_place {path name : String} (member : name ∈ place path)
    : separator ∉ name.toList := by
  obtain ⟨part, split, rfl⟩ := List.mem_map.mp (mem_of_mem_place member)
  rw [String.toList_ofList]
  exact separator_not_mem_of_mem_splitOn split

/-- Places can be told from how they are written. -/
theorem place_eq_of_ofPlace_eq {path other : String} (below : isBelow (place path) = true)
    (belowOther : isBelow (place other) = true)
    (same : ofPlace (place path) = ofPlace (place other))
    : place path = place other := by
  have spelled : ∀ path, isBelow (place path) = true
      → components (ofPlace (place path)) = place path := by
    intro path below
    have notEmpty : (place path).map String.toList ≠ [] := by
      intro empty
      rw [List.map_eq_nil_iff.mp empty] at below
      cases below
    have free : ∀ letters ∈ (place path).map String.toList, separator ∉ letters := by
      intro letters member
      obtain ⟨name, isName, rfl⟩ := List.mem_map.mp member
      exact separator_not_mem_of_mem_place isName
    rw [components, ofPlace, String.toList_intercalate, String.toList_ofList,
      List.splitOn_intercalate _ free notEmpty, List.map_map]
    simp
  rw [← spelled path below, same, spelled other belowOther]

end HostPath

-----------------------------------------------------------------------------------------
-- Files hold what was written last
-----------------------------------------------------------------------------------------

/-- Making directories changes nothing that is there. -/
theorem HostTree.get?_makeDirectory {tree : HostTree} {key : String} {node : HostNode}
    (present : tree.get? key = some node) (path : String)
    : (tree.makeDirectory path).get? key = some node := by
  unfold makeDirectory
  split
  · exact present
  · generalize HostPath.places path = places
    induction places generalizing tree with
    | nil => exact present
    | cons place others ih =>
        refine ih ?_
        dsimp only
        split
        · exact present
        · next absent =>
            rw [Ledger.get?_put]
            split
            · next same =>
                rw [same] at present
                simp [present] at absent
            · exact present

namespace Extraction

namespace Effect

/-- The bytes that effects leave in the file at a path, if any are written there: the last ones. -/
def left? (effects : List Effect) (path : String) : Option Bytes :=
  effects.reverse.findSome? fun effect =>
    match effect with
    | writeFile target data => if HostPath.isSame target path then some data else none
    | say _ | warn _ | makeDirectory _ => none

theorem left?_append (first second : List Effect) (path : String)
    : left? (first ++ second) path = (left? second path).or (left? first path) := by
  rw [left?, List.reverse_append, List.findSome?_append]
  rfl

/-- Nothing is left in a file that is not written to. -/
theorem left?_eq_none_iff {effects : List Effect} {path : String}
    : left? effects path = none
      ↔ ∀ target data, writeFile target data ∈ effects → HostPath.isSame target path = false := by
  rw [left?, List.findSome?_eq_none_iff]
  constructor
  · intro silent target data member
    have nothing := silent _ (List.mem_reverse.mpr member)
    cases same : HostPath.isSame target path with
    | false => rfl
    | true => simp [same] at nothing
  · intro others effect member
    cases effect with
    | say | warn | makeDirectory => rfl
    | writeFile target data =>
        have apart := others target data (List.mem_reverse.mp member)
        simp [apart]

theorem tree_concat (effects : List Effect) (effect : Effect)
    : tree (effects ++ [effect]) = apply (tree effects) effect := by
  rw [tree, tree, List.foldl_concat]

/-- Below the current directory, what is left in a file is what the tree of files has there, by
induction on the effects from the last one back.
-/
theorem get?_tree_of_left? {effects : List Effect} {path : String} {data : Bytes}
    (isRelative : HostPath.isAbsolute path = false)
    (below : HostPath.isBelow (HostPath.place path) = true)
    (left : left? effects path = some data)
    : (tree effects).get? (HostPath.ofPlace (HostPath.place path)) = some (.file data) := by
  induction effects using List.reverseRecOn with
  | nil => cases left
  | append_singleton effects effect ih =>
      rw [left?_append] at left
      rw [tree_concat]
      cases effect with
      | say | warn => exact ih left
      | makeDirectory target => exact HostTree.get?_makeDirectory (ih left) target
      | writeFile target others =>
          cases same : HostPath.isSame target path with
          | true =>
              have written : others = data := by simpa [left?, same] using left
              simp only [HostPath.isSame, Bool.and_eq_true, decide_eq_true_eq] at same
              simp only [apply, HostTree.writeFile, same.1, same.2, isRelative, below]
              rw [if_neg (by simp), Ledger.get?_put, if_pos rfl, written]
          | false =>
              have before : left? effects path = some data := by simpa [left?, same] using left
              simp only [apply, HostTree.writeFile]
              split
              · exact ih before
              · next inside =>
                  simp only [Bool.or_eq_true, not_or, Bool.not_eq_true, Bool.not_eq_false']
                    at inside
                  rw [Ledger.get?_put, if_neg, ih before]
                  intro written
                  have samePlace := HostPath.place_eq_of_ofPlace_eq below inside.2 written
                  simp [HostPath.isSame, inside.1, isRelative, samePlace] at same

end Effect

end Extraction

end DiscVolume
