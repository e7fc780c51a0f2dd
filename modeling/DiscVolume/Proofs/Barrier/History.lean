import DiscVolume.Proofs.Barrier.ExactlyOnce
import DiscVolume.Proofs.Barrier.Locality

/-! Histories of a barrier, from the point of view of one name. What a step can mean to the
operation of a name is said once, by the relation Bearing; what holds of the operation after any
history follows from that by induction over the steps.
-/

namespace DiscVolume.Barrier

/-- Whether a step can only remove an operation. -/
def Move.isRemoval : Move α ε → Bool
  | .enter _ _ | .conclude _ _ _ => false
  | .forget _ | .evict _ _ _ => true

namespace Scene

/-- What is seen of the steps of a history, one step after the other. -/
def along (look : Scene α ε → Move α ε → List β) (scene : Scene α ε) : List (Move α ε) → List β
  | [] => []
  | move :: others => look scene move ++ (scene.after move).along look others

theorem along_append (look : Scene α ε → Move α ε → List β) (scene : Scene α ε)
    (moves others : List (Move α ε))
    : scene.along look (moves ++ others)
      = scene.along look moves ++ (moves.foldl after scene).along look others := by
  induction moves generalizing scene with
  | nil => rfl
  | cons move moves ih =>
      simp only [List.cons_append, along, List.foldl_cons, ih, List.append_assoc]

/-- What is seen of the history of a new barrier, when one more step is taken. -/
theorem along_concat (look : Scene α ε → Move α ε → List β) (moves : List (Move α ε))
    (move : Move α ε)
    : along look {} (moves ++ [move]) = along look {} moves ++ look (reached moves) move := by
  simp only [along_append, along, List.append_nil, reached]

theorem reached_append (moves others : List (Move α ε))
    : reached (moves ++ others) = others.foldl after (reached moves) :=
  List.foldl_append

theorem reached_concat (moves : List (Move α ε)) (move : Move α ε)
    : reached (moves ++ [move]) = (reached moves).after move :=
  reached_append moves [move]

/-- The name of the operation that a step is for. The end of a run that is not at work is for
none.
-/
def subject? (scene : Scene α ε) : Move α ε → Option String
  | .enter contribution _ => some contribution.operation
  | .conclude place _ _ => scene.runs[place]?.map Run.operation
  | .forget name | .evict name _ _ => some name

/-- What a step can mean to the operation of a name. -/
inductive Bearing (scene : Scene α ε) (name : String) (next : Scene α ε) : Move α ε → Prop where
  | apart {move : Move α ε} (elsewhere : scene.subject? move ≠ some name)
    (stored : next.stored? name = scene.stored? name)
    (removals : next.removals name = scene.removals name)
    : Bearing scene name next move
  | refused {contribution : Contribution α} {now : Seconds} {refusal : Refusal}
    (named : contribution.operation = name)
    (refuses : contribution.admitTo now (scene.stored? name) = .error refusal)
    (stored : next.stored? name = scene.stored? name)
    (removals : next.removals name = scene.removals name)
    : Bearing scene name next (.enter contribution now)
  | taken {contribution : Contribution α} {now : Seconds} {operation : Operation α ε}
    (named : contribution.operation = name)
    (admits : contribution.admitTo now (scene.stored? name) = .ok operation)
    (stored : next.stored? name = some (operation.accept contribution now).2)
    (removals : next.removals name = scene.removals name)
    : Bearing scene name next (.enter contribution now)
  | ended {place : Nat} {ending : Ending α ε} {now : Seconds} {run : Run α}
    {operation : Operation α ε} (at_place : scene.runs[place]? = some run)
    (named : run.operation = name) (found : scene.stored? name = some operation)
    (running : operation.phase.isRunning) (lifetime : run.lifetime = scene.removals name)
    (stored : next.stored? name = some { operation with phase := ending.phase now })
    (removals : next.removals name = scene.removals name)
    : Bearing scene name next (.conclude place ending now)
  | spared {move : Move α ε} (removal : move.isRemoval)
    (stored : next.stored? name = scene.stored? name)
    (removals : next.removals name = scene.removals name)
    : Bearing scene name next move
  | removed {move : Move α ε} {operation : Operation α ε} (removal : move.isRemoval)
    (found : scene.stored? name = some operation) (resting : operation.phase.isRunning = false)
    (stored : next.stored? name = none)
    (removals : next.removals name = scene.removals name + 1)
    : Bearing scene name next move

variable {scene : Scene α ε}

theorem after_enter (scene : Scene α ε) (contribution : Contribution α) (now : Seconds)
    : (scene.after (.enter contribution now)).barrier = (scene.barrier.enter contribution now).2
      ∧ (scene.after (.enter contribution now)).removals = scene.removals := by
  simp only [after]
  cases scene.barrier.enter contribution now with
  | mk turn barrier => cases turn <;> exact ⟨rfl, rfl⟩

theorem bearing_enter (scene : Scene α ε) (name : String) (contribution : Contribution α)
    (now : Seconds)
    : scene.Bearing name (scene.after (.enter contribution now)) (.enter contribution now) := by
  obtain ⟨barrier, removals⟩ := scene.after_enter contribution now
  obtain ⟨-, effect⟩ := actsOn_enter contribution now scene.barrier
  have stored := effect name
  rw [← barrier] at stored
  by_cases named : name = contribution.operation
  · rw [if_pos named, ← named, Contribution.meet] at stored
    cases admits : contribution.admitTo now (scene.barrier.operations.get? name) with
    | error refusal =>
        rw [admits] at stored
        exact .refused named.symm admits stored (congrFun removals name)
    | ok operation =>
        rw [admits] at stored
        exact .taken named.symm admits stored (congrFun removals name)
  · rw [if_neg named] at stored
    refine .apart ?_ stored (congrFun removals name)
    intro same
    exact named (Option.some.inj same).symm

theorem IsSound.bearing_conclude (sound : scene.IsSound) (name : String) (place : Nat)
    (ending : Ending α ε) (now : Seconds)
    : scene.Bearing name (scene.after (.conclude place ending now))
        (.conclude place ending now) := by
  cases at_place : scene.runs[place]? with
  | none =>
      have same : scene.after (.conclude place ending now) = scene := by
        simp only [after, at_place]
      rw [same]
      exact .apart (by simp [subject?, at_place]) rfl rfl
  | some run =>
      obtain ⟨operation, found, running, -, lifetime⟩ :=
        sound.atWork run (List.mem_of_getElem? at_place)
      obtain ⟨-, effect⟩ := actsOn_conclude run.operation ending now scene.barrier
      have stored : (scene.after (.conclude place ending now)).stored? name
          = if name = run.operation then some { operation with phase := ending.phase now }
            else scene.stored? name := by
        have known : scene.barrier.operations.get? run.operation = some operation := found
        simp only [known, Option.map_some, Operation.ended, running, if_true] at effect
        simpa only [after, at_place, stored?] using effect name
      have removals : (scene.after (.conclude place ending now)).removals = scene.removals := by
        simp only [after, at_place]
      by_cases named : name = run.operation
      · subst named
        rw [if_pos rfl] at stored
        exact .ended at_place rfl found running lifetime stored (congrFun removals _)
      · rw [if_neg named] at stored
        refine .apart ?_ stored (congrFun removals name)
        simp only [subject?, at_place, Option.map_some, ne_eq, Option.some.injEq]
        exact fun same => named same.symm

/-- Removing the operation of one name bears on that name alone. -/
theorem bearing_remove {name other : String} {move : Move α ε} {operation : Operation α ε}
    {rest : Barrier α ε} (removal : move.isRemoval) (found : scene.stored? other = some operation)
    (resting : operation.phase.isRunning = false) (but : rest.IsBut scene.barrier other none)
    : scene.Bearing name (scene.remove other rest) move := by
  have stored : (scene.remove other rest).stored? name
      = if name = other then none else scene.stored? name := but name
  by_cases named : name = other
  · subst named
    rw [if_pos rfl] at stored
    exact .removed removal found resting stored (Function.update_self ..)
  · rw [if_neg named] at stored
    exact .spared removal stored (Function.update_of_ne named ..)

theorem bearing_forget (scene : Scene α ε) (name other : String)
    : scene.Bearing name (scene.after (.forget other)) (.forget other) := by
  cases found : scene.barrier.operations.get? other with
  | none =>
      simp only [after, Barrier.forget, found]
      exact .spared rfl rfl rfl
  | some operation =>
      cases phase : operation.phase with
      | running since =>
          simp only [after, Barrier.forget, found, phase]
          exact .spared rfl rfl rfl
      | idle | finished _ _ =>
          simp only [after, Barrier.forget, found, phase]
          exact bearing_remove rfl found (by rw [phase]; rfl) (.drop _ _)

theorem bearing_evict (scene : Scene α ε) (name other : String) (age now : Seconds)
    : scene.Bearing name (scene.after (.evict other age now)) (.evict other age now) := by
  cases found : scene.barrier.operations.get? other with
  | none =>
      simp only [after, Barrier.evict, found]
      exact .spared rfl rfl rfl
  | some operation =>
      cases phase : operation.phase with
      | running _ | idle =>
          simp only [after, Barrier.evict, found, phase]
          exact .spared rfl rfl rfl
      | finished verdict ended =>
          cases since : now.minus ended with
          | error fault =>
              simp only [after, Barrier.evict, found, phase, since]
              exact .spared rfl rfl rfl
          | ok passed =>
              cases young : age.exceeds passed with
              | true =>
                  simp only [after, Barrier.evict, found, phase, since, young]
                  exact .spared rfl rfl rfl
              | false =>
                  simp only [after, Barrier.evict, found, phase, since, young]
                  exact bearing_remove rfl found (by rw [phase]; rfl) (.drop _ _)

/-- Every step means one of these things to the operation of a name. -/
theorem IsSound.bearing (sound : scene.IsSound) (name : String) (move : Move α ε)
    : scene.Bearing name (scene.after move) move := by
  cases move with
  | enter contribution now => exact scene.bearing_enter name contribution now
  | conclude place ending now => exact sound.bearing_conclude name place ending now
  | forget other => exact scene.bearing_forget name other
  | evict other age now => exact scene.bearing_evict name other age now

theorem IsSound.after (sound : scene.IsSound) (move : Move α ε) : (scene.after move).IsSound :=
  sound.of_change (sound.change move)

theorem IsSound.foldl_after (sound : scene.IsSound) (moves : List (Move α ε))
    : (moves.foldl Scene.after scene).IsSound := by
  induction moves generalizing scene with
  | nil => exact sound
  | cons move moves ih => exact ih (sound.after move)

/-- What a contribution goes to is sound, be it stored or new. -/
theorem IsSound.admitTo (sound : scene.IsSound) {name : String} {contribution : Contribution α}
    {now : Seconds} {operation : Operation α ε}
    (admits : contribution.admitTo now (scene.stored? name) = .ok operation)
    : operation.IsSound :=
  Contribution.isSound_of_admitTo (sound.operations name) admits

/-- A removal is never undone. -/
theorem IsSound.removals_le (sound : scene.IsSound) (name : String) (moves : List (Move α ε))
    : scene.removals name ≤ (moves.foldl Scene.after scene).removals name := by
  induction moves generalizing scene with
  | nil => exact Nat.le_refl _
  | cons move moves ih =>
      refine Nat.le_trans ?_ (ih (sound.after move))
      cases sound.bearing name move with
      | apart _ _ removals | refused _ _ _ removals | taken _ _ _ removals
        | ended _ _ _ _ _ _ removals | spared _ _ removals => exact Nat.le_of_eq removals.symm
      | removed _ _ _ _ removals => omega

/-- If the operation of a name is not removed by some steps, then it is not removed by the first of
them and not by the others.
-/
theorem IsSound.kept_cons (sound : scene.IsSound) {name : String} {move : Move α ε}
    {moves : List (Move α ε)}
    (kept : ((move :: moves).foldl Scene.after scene).removals name = scene.removals name)
    : (scene.after move).removals name = scene.removals name
      ∧ (moves.foldl Scene.after (scene.after move)).removals name
        = (scene.after move).removals name := by
  have now := sound.removals_le name [move]
  have later := (sound.after move).removals_le name moves
  simp only [List.foldl_cons, List.foldl_nil] at now kept
  omega

end Scene

end DiscVolume.Barrier
