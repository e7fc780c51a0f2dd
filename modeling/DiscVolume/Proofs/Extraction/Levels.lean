import Mathlib.Data.List.Chain

/-! The levels of a tree that is given by what comes next after each of its members. What is on a
level ends a chain from the top, and there is one member for each of these chains.
-/

namespace DiscVolume.Extraction

variable {α : Type}

/-- What is found in two lists in a row is in the first of them, or behind all of that in the other.
-/
theorem mem_of_append_eq {first second front back : List α} {a : α}
    (split : first ++ second = front ++ a :: back)
    : (∃ between, first = front ++ a :: between)
      ∨ ∃ between, front = first ++ between ∧ second = between ++ a :: back := by
  rcases List.append_eq_append_iff.mp split with found | ⟨between, firstEq, others⟩
  · exact .inr found
  · rcases between with _ | ⟨head, between⟩
    · exact .inr ⟨[], by simpa using firstEq.symm, others.symm⟩
    · obtain ⟨rfl, -⟩ := List.cons_eq_cons.mp others
      exact .inl ⟨between, firstEq⟩

variable (next : α → List α)

/-- What is found at some depth below a line of things, in the order of what they are below. -/
def level : (depth : Nat) → List α → List α
  | 0, line => line
  | depth + 1, line => level depth (line.flatMap next)

/-- What is found down to some depth, level by level. -/
def levels : (depth : Nat) → List α → List α
  | 0, _ => []
  | depth + 1, line => line ++ levels depth (line.flatMap next)

/-- The last level is what comes next after the one before it. -/
theorem level_succ (depth : Nat) (line : List α)
    : level next (depth + 1) line = (level next depth line).flatMap next := by
  induction depth generalizing line with
  | zero => rfl
  | succ depth ih => exact ih (line.flatMap next)

theorem levels_succ (depth : Nat) (line : List α)
    : levels next (depth + 1) line = levels next depth line ++ level next depth line := by
  induction depth generalizing line with
  | zero => simp [levels, level]
  | succ depth ih =>
      have others := ih (line.flatMap next)
      simp only [levels, level] at others ⊢
      rw [others, List.append_assoc]

/-- Nothing comes behind a level with nothing on it. -/
theorem levels_eq_of_level_eq_nil {depth deeper : Nat} {line : List α} (lower : depth ≤ deeper)
    (bottom : level next depth line = [])
    : levels next deeper line = levels next depth line := by
  have below : level next deeper line = [] ∧ levels next deeper line = levels next depth line := by
    induction lower with
    | refl => exact ⟨bottom, rfl⟩
    | step _ ih => exact ⟨by rw [level_succ, ih.1]; rfl, by rw [levels_succ, ih.1, ih.2]; simp⟩
  exact below.2

/-- Everything in the first levels is on one of them. -/
theorem mem_levels {depth : Nat} {line : List α} {a : α}
    : a ∈ levels next depth line ↔ ∃ above < depth, a ∈ level next above line := by
  induction depth with
  | zero => simp [levels]
  | succ depth ih =>
      simp only [levels_succ, List.mem_append, ih, Nat.lt_succ_iff_lt_or_eq]
      constructor
      · rintro (⟨above, lower, member⟩ | member)
        · exact ⟨above, .inl lower, member⟩
        · exact ⟨depth, .inr rfl, member⟩
      · rintro ⟨above, lower | rfl, member⟩
        · exact .inl ⟨above, lower, member⟩
        · exact .inr member

/-- Whatever comes in the first levels is at the top or comes after what it is next to. -/
theorem exists_before {depth : Nat} {line front back : List α} {a : α}
    (split : levels next depth line = front ++ a :: back)
    : a ∈ line ∨ ∃ b ∈ front, a ∈ next b := by
  induction depth generalizing line front with
  | zero => simp [levels] at split
  | succ depth ih =>
      rcases mem_of_append_eq split with ⟨between, rfl⟩ | ⟨between, rfl, others⟩
      · exact .inl (by simp)
      · -- All of the line comes first, so what is found is in the levels below it.
        rcases ih others with isNext | ⟨b, member, isNext⟩
        · obtain ⟨b, inLine, isNext⟩ := List.mem_flatMap.mp isNext
          exact .inr ⟨b, List.mem_append_left _ inLine, isNext⟩
        · exact .inr ⟨b, List.mem_append_right _ member, isNext⟩

/-- A line has the levels of all that is in it. -/
theorem level_eq_flatMap (depth : Nat) (line : List α)
    : level next depth line = line.flatMap fun a => level next depth [a] := by
  induction depth generalizing line with
  | zero => simp [level]
  | succ depth ih =>
      simp only [level]
      rw [ih, List.flatMap_assoc]
      exact List.flatMap_congr (fun a _ => by simpa using (ih (next a)).symm)

/-- Each member of a level ends a chain from the line down to it, and each such chain ends there.
-/
theorem mem_level {depth : Nat} {line : List α} {a : α}
    : a ∈ level next depth line
      ↔ ∃ chain, chain.length = depth + 1
          ∧ List.IsChain (fun above below => below ∈ next above) chain
          ∧ (∃ first ∈ line, chain.head? = some first) ∧ chain.getLast? = some a := by
  induction depth generalizing line with
  | zero =>
      constructor
      · intro member
        exact ⟨[a], rfl, .singleton a, ⟨a, member, rfl⟩, rfl⟩
      · rintro ⟨chain, single, -, ⟨first, member, starts⟩, ends⟩
        obtain ⟨only, rfl⟩ := List.length_eq_one_iff.mp single
        cases starts
        cases ends
        exact member
  | succ depth ih =>
      rw [level, ih]
      constructor
      · rintro ⟨chain, long, isChain, ⟨first, member, starts⟩, ends⟩
        obtain ⟨above, isAbove, isNext⟩ := List.mem_flatMap.mp member
        refine ⟨above :: chain, by simp [long], ?_, ⟨above, isAbove, rfl⟩, ?_⟩
        · refine List.isChain_cons.mpr ⟨?_, isChain⟩
          intro below isFirst
          obtain rfl : first = below := by simpa [starts] using isFirst
          exact isNext
        · simp [List.getLast?_cons, ends]
      · rintro ⟨chain, long, isChain, ⟨first, member, starts⟩, ends⟩
        rcases chain with _ | ⟨above, _ | ⟨below, chain⟩⟩
        · cases starts
        · simp at long
        · cases starts
          obtain ⟨isNext, isChain⟩ := List.isChain_cons_cons.mp isChain
          refine ⟨below :: chain, by simpa using long, isChain, ⟨below, ?_, rfl⟩, ?_⟩
          · exact List.mem_flatMap.mpr ⟨first, member, isNext⟩
          · simpa using ends

/-- Where there is something at a depth, there is something at every lesser depth. -/
theorem level_ne_nil_of_le {above depth : Nat} {line : List α} (lower : above ≤ depth)
    (present : level next depth line ≠ [])
    : level next above line ≠ [] := by
  induction lower with
  | refl => exact present
  | step _ ih =>
      refine ih (fun absent => present ?_)
      rw [level_succ, absent, List.flatMap_nil]

/-- There are as many members as levels, if there is something on each of these. -/
theorem le_length_levels {depth : Nat} {line : List α}
    (present : ∀ above, level next above line ≠ [])
    : depth ≤ (levels next depth line).length := by
  induction depth with
  | zero => exact Nat.zero_le _
  | succ depth ih =>
      have last := List.length_pos_of_ne_nil (present depth)
      rw [levels_succ, List.length_append]
      omega

/-- Something has something at a depth below it if it has a next one with something at one less.
-/
theorem level_ne_nil_iff {depth : Nat} {a : α}
    : level next (depth + 1) [a] ≠ [] ↔ ∃ b ∈ next a, level next depth [b] ≠ [] := by
  have below : level next (depth + 1) [a] = (next a).flatMap fun b => level next depth [b] := by
    rw [← level_eq_flatMap, level, List.flatMap_singleton]
  rw [below, ne_eq, List.flatMap_eq_nil_iff]
  simp only [not_forall, exists_prop, ne_eq]

end DiscVolume.Extraction
