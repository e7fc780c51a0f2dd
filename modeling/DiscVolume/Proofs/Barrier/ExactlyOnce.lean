import DiscVolume.Proofs.Barrier.Interleaving
import DiscVolume.Proofs.Barrier.Turns
import Mathlib.Data.List.Nodup

/-! Every operation of a barrier is run to an end at most once, whatever the order in which the
steps of its callers come. What one step can do is said by the relation Change; the invariant
ties each run at work to an operation that is stored as running, and each operation that is
stored as finished to one completed run.
-/

namespace DiscVolume.Barrier

namespace Scene

variable {scene : Scene α ε}

/-- Puts an operation under a name. -/
def store (scene : Scene α ε) (name : String) (operation : Operation α ε) : Scene α ε :=
  { scene with barrier := { operations := scene.barrier.operations.put name operation } }

/-- Whether a finished operation goes by a name. -/
def hasFinished (scene : Scene α ε) (name : String) : Bool :=
  (scene.stored? name).any fun operation => operation.phase.isFinished

/-- What is put under a name is found there, and nothing else changes. -/
theorem stored?_store (scene : Scene α ε) (name other : String) (next : Operation α ε)
    : (scene.store name next).stored? other
      = if other = name then some next else scene.stored? other :=
  Ledger.get?_put _ _ _ _

/-- Only the name under which an operation is put can get or lose a finished one. -/
theorem hasFinished_store (scene : Scene α ε) (name other : String) (next : Operation α ε)
    : (scene.store name next).hasFinished other
      = if other = name then next.phase.isFinished else scene.hasFinished other := by
  rw [hasFinished, stored?_store]
  split <;> rfl

/-- A removed operation is not found any more, and nothing else changes. -/
theorem stored?_remove (scene : Scene α ε) (name other : String)
    : (scene.remove name { operations := scene.barrier.operations.drop name }).stored? other
      = if other = name then none else scene.stored? other :=
  Ledger.get?_drop _ _ _

/-- What holds between a barrier, the run functions at work for it and the completed runs. -/
structure IsSound (scene : Scene α ε) : Prop where
  operations : ∀ name operation, scene.stored? name = some operation → operation.IsSound
  /-- No two runs are at work for one name. -/
  alone : (scene.runs.map Run.operation).Nodup
  atWork
    : ∀ run ∈ scene.runs, ∃ operation, scene.stored? run.operation = some operation
        ∧ operation.phase.isRunning
        ∧ operation.items = run.items
        ∧ run.lifetime = scene.removals run.operation
  /-- An operation is running only while a run is at work for it. -/
  attended : ∀ name operation, scene.stored? name = some operation
    → operation.phase.isRunning → ∃ run ∈ scene.runs, run.operation = name
  /-- No run is recorded for an operation that is still to come. -/
  recorded : ∀ name lifetime, (name, lifetime) ∈ scene.completions
    → lifetime ≤ scene.removals name
  once : scene.completions.Nodup
  tallied : ∀ name, (name, scene.removals name) ∈ scene.completions ↔ scene.hasFinished name

/-- What a step can do to a scene. Only the end of the run in a place removes it from there. -/
inductive Change (scene : Scene α ε) : Move α ε → Scene α ε → Prop where
  | same {move : Move α ε} : Change scene move scene
  | kept {move : Move α ε} {name : String} {next : Operation α ε} (sound : next.IsSound)
    (new : scene.stored? name = none → next.phase = .idle)
    (old : ∀ operation, scene.stored? name = some operation → next.phase = operation.phase
      ∧ (operation.phase ≠ .idle → next = operation))
    : Change scene move (scene.store name next)
  | started {move : Move α ε} {name : String} {next : Operation α ε} {now : Seconds}
    (idle : ∀ operation, scene.stored? name = some operation → operation.phase = .idle)
    (running : next.phase = .running now) (full : next.items.size = next.howMany)
    : Change scene move { scene.store name next with
        runs := ⟨name, scene.removals name, next.items⟩ :: scene.runs }
  | completed {place : Nat} {run : Run α} {operation : Operation α ε} {ending : Ending α ε}
    {verdict : Except ε α} {now : Seconds} (at_place : scene.runs[place]? = some run)
    (found : scene.stored? run.operation = some operation)
    : Change scene (.conclude place ending now)
        { scene.store run.operation { operation with phase := .finished verdict now } with
          runs := scene.runs.eraseIdx place
          completions := (run.operation, run.lifetime) :: scene.completions }
  | interrupted {place : Nat} {run : Run α} {operation : Operation α ε} {ending : Ending α ε}
    {now : Seconds} (at_place : scene.runs[place]? = some run)
    (found : scene.stored? run.operation = some operation)
    : Change scene (.conclude place ending now)
        { scene.store run.operation { operation with phase := .idle } with
          runs := scene.runs.eraseIdx place }
  | removed {move : Move α ε} {name : String} {operation : Operation α ε}
    (found : scene.stored? name = some operation) (resting : operation.phase.isRunning = false)
    : Change scene move (scene.remove name { operations := scene.barrier.operations.drop name })

/-- A contribution leaves the phase of its operation as it is, or starts the run. -/
theorem IsSound.change_enter (sound : scene.IsSound) (contribution : Contribution α)
    (now : Seconds)
    : scene.Change (.enter contribution now) (scene.after (.enter contribution now)) := by
  cases admitted : contribution.admitTo now
      (scene.barrier.operations.get? contribution.operation) with
  | error refusal =>
      simp only [after, Barrier.enter, admitted]
      exact .same
  | ok operation =>
      have stored : operation.IsSound
          ∧ (scene.stored? contribution.operation = none → operation.phase = .idle)
          ∧ ∀ known, scene.stored? contribution.operation = some known → operation = known := by
        rcases Contribution.admitTo_eq_ok admitted with known | ⟨new, idle, empty⟩
        · refine ⟨sound.operations _ _ known, fun absent => ?_, fun other found => ?_⟩
          · cases known.symm.trans absent
          · exact Option.some.inj (known.symm.trans found)
        · refine ⟨⟨?_, fun begun => absurd idle begun⟩, fun _ => idle, fun other found => ?_⟩
          · simp [empty, Ledger.empty, Ledger.size]
          · cases new.symm.trans found
      obtain ⟨operationSound, new, old⟩ := stored
      obtain ⟨turn, next, accepted, advance⟩ := operationSound.advance_accept contribution now
      simp only [after, Barrier.enter, admitted, accepted]
      cases advance with
      | stays noRun nextSound phase unchanged =>
          have change : scene.Change (.enter contribution now)
              (scene.store contribution.operation next) := by
            refine .kept nextSound (fun absent => phase.trans (new absent)) ?_
            intro known found
            rw [← old known found]
            exact ⟨phase, unchanged⟩
          cases turn with
          | mustRun items => exact absurd rfl (noRun items)
          | answered response => exact change
          | untimed fault => exact change
      | starts idle running full =>
          exact .started (fun known found => old known found ▸ idle) running full

/-- The end of a run at work makes its operation finished or idle. -/
theorem IsSound.change_conclude (sound : scene.IsSound) (place : Nat) (ending : Ending α ε)
    (now : Seconds)
    : scene.Change (.conclude place ending now) (scene.after (.conclude place ending now)) := by
  cases at_place : scene.runs[place]? with
  | none =>
      simp only [after, at_place]
      exact .same
  | some run =>
      obtain ⟨operation, found, running, -, -⟩ :=
        sound.atWork run (List.mem_of_getElem? at_place)
      have ended (phase : Phase α ε)
          : scene.barrier.endRun run.operation phase
            = (scene.store run.operation { operation with phase }).barrier := by
        have known : scene.barrier.operations.get? run.operation = some operation := found
        simp only [endRun, known, store]
        cases since : operation.phase with
        | running _ => rfl
        | idle => simp [since, Phase.isRunning] at running
        | finished _ _ => simp [since, Phase.isRunning] at running
      cases ending with
      | returned value =>
          simp only [after, at_place, Session.conclude, complete, ended]
          exact .completed at_place found
      | raised error =>
          simp only [after, at_place, Session.conclude, complete, ended]
          exact .completed at_place found
      | interrupted =>
          simp only [after, at_place, Session.conclude, interrupt, ended]
          exact .interrupted at_place found

/-- Only an operation that is not running is forgotten. -/
theorem change_forget (scene : Scene α ε) (name : String)
    : scene.Change (.forget name) (scene.after (.forget name)) := by
  cases found : scene.barrier.operations.get? name with
  | none =>
      simp only [after, Barrier.forget, found]
      exact .same
  | some operation =>
      cases phase : operation.phase with
      | running since =>
          simp only [after, Barrier.forget, found, phase]
          exact .same
      | idle =>
          simp only [after, Barrier.forget, found, phase]
          exact .removed found (by simp [phase, Phase.isRunning])
      | finished verdict ended =>
          simp only [after, Barrier.forget, found, phase]
          exact .removed found (by simp [phase, Phase.isRunning])

/-- Only a finished operation is evicted. -/
theorem change_evict (scene : Scene α ε) (name : String) (age now : Seconds)
    : scene.Change (.evict name age now) (scene.after (.evict name age now)) := by
  cases found : scene.barrier.operations.get? name with
  | none =>
      simp only [after, Barrier.evict, found]
      exact .same
  | some operation =>
      cases phase : operation.phase with
      | running _ | idle =>
          simp only [after, Barrier.evict, found, phase]
          exact .same
      | finished verdict ended =>
          cases since : now.minus ended with
          | error fault =>
              simp only [after, Barrier.evict, found, phase, since]
              exact .same
          | ok passed =>
              cases young : age.exceeds passed with
              | true =>
                  simp only [after, Barrier.evict, found, phase, since, young]
                  exact .same
              | false =>
                  simp only [after, Barrier.evict, found, phase, since, young]
                  exact .removed found (by simp [phase, Phase.isRunning])

/-- Every step makes one of the changes. -/
theorem IsSound.change (sound : scene.IsSound) (move : Move α ε)
    : scene.Change move (scene.after move) := by
  cases move with
  | enter contribution now => exact sound.change_enter contribution now
  | conclude place ending now => exact sound.change_conclude place ending now
  | forget name => exact scene.change_forget name
  | evict name age now => exact scene.change_evict name age now

/-- A run at work keeps its operation stored and running. -/
theorem IsSound.isRunning (sound : scene.IsSound) {run : Run α} (member : run ∈ scene.runs)
    {operation : Operation α ε} (found : scene.stored? run.operation = some operation)
    : operation.phase.isRunning := by
  obtain ⟨known, stored, running, -, -⟩ := sound.atWork run member
  cases stored.symm.trans found
  exact running

/-- Runs in different places are at work for different names. -/
theorem IsSound.operation_ne (sound : scene.IsSound) {place other : Nat} {run rival : Run α}
    (at_place : scene.runs[place]? = some run) (at_other : scene.runs[other]? = some rival)
    (differs : other ≠ place)
    : rival.operation ≠ run.operation := by
  intro same
  have inside : other < (scene.runs.map Run.operation).length := by
    rw [List.length_map]
    exact (List.getElem?_eq_some_iff.mp at_other).1
  refine differs ((List.getElem?_inj inside sound.alone).mp ?_)
  simp only [List.getElem?_map, at_place, at_other, Option.map_some, same]

/-- Whatever becomes of the operation of another run, that of a run at work stays as it is. -/
theorem IsSound.stored?_ended (sound : scene.IsSound) {place other : Nat} {run rival : Run α}
    (at_place : scene.runs[place]? = some run) (at_other : scene.runs[other]? = some rival)
    (differs : place ≠ other) (next : Operation α ε)
    : (scene.store rival.operation next).stored? run.operation
      = scene.stored? run.operation := by
  rw [stored?_store, if_neg (sound.operation_ne at_other at_place differs)]

/-- A run at work is for an operation that is not finished yet. -/
theorem IsSound.unfinished (sound : scene.IsSound) {run : Run α} (member : run ∈ scene.runs)
    : scene.hasFinished run.operation = false := by
  obtain ⟨operation, found, running, -, -⟩ := sound.atWork run member
  simp only [hasFinished, found, Option.any_some]
  cases phase : operation.phase with
  | running since => rfl
  | idle | finished _ _ => simp [phase, Phase.isRunning] at running

/-- Soundness survives a change of an operation that leaves its phase as it is. -/
theorem IsSound.kept (sound : scene.IsSound) {name : String} {next : Operation α ε}
    (nextSound : next.IsSound) (new : scene.stored? name = none → next.phase = .idle)
    (old : ∀ operation, scene.stored? name = some operation
      → next.phase = operation.phase ∧ (operation.phase ≠ .idle → next = operation))
    : (scene.store name next).IsSound where
  operations other operation found := by
    rw [stored?_store] at found
    split at found
    · cases found
      exact nextSound
    · exact sound.operations other operation found
  alone := sound.alone
  atWork run member := by
    obtain ⟨operation, found, running, items, lifetime⟩ := sound.atWork run member
    refine ⟨operation, ?_, running, items, lifetime⟩
    rw [stored?_store]
    split
    · next same =>
        -- The operation has begun, so a change that keeps its phase keeps all of it.
        have begun := Phase.ne_idle_of_isRunning running
        rw [(old operation (same ▸ found)).2 begun]
    · exact found
  attended other operation found running := by
    rw [stored?_store] at found
    split at found
    · next same =>
        cases found
        subst same
        cases known : scene.stored? other with
        | none =>
            rw [new known] at running
            cases running
        | some operation =>
            rw [(old operation known).1] at running
            exact sound.attended other operation known running
    · exact sound.attended other operation found running
  recorded := sound.recorded
  once := sound.once
  tallied other := by
    -- The phase under the name is the one from before, or idle where nothing was stored.
    have finished_eq : (scene.store name next).hasFinished other = scene.hasFinished other := by
      rw [hasFinished_store]
      split
      · next same =>
          subst same
          cases found : scene.stored? other with
          | none => simp [new found, hasFinished, Phase.isFinished, found]
          | some operation => simp [(old operation found).1, hasFinished, found]
      · rfl
    rw [finished_eq]
    exact sound.tallied other

/-- Soundness survives the start of a run of an idle operation. -/
theorem IsSound.started (sound : scene.IsSound) {name : String} {next : Operation α ε}
    {now : Seconds}
    (idle : ∀ operation, scene.stored? name = some operation → operation.phase = .idle)
    (running : next.phase = .running now) (full : next.items.size = next.howMany)
    : IsSound { scene.store name next with
        runs := ⟨name, scene.removals name, next.items⟩ :: scene.runs } := by
  -- A run at work for the name would need a running operation, and this one is idle.
  have absent (run : Run α) (member : run ∈ scene.runs) : run.operation ≠ name := by
    intro same
    obtain ⟨operation, found, begun, -, -⟩ := sound.atWork run member
    rw [idle operation (same ▸ found)] at begun
    cases begun
  refine {
    operations := fun other operation found => ?_
    alone := ?_
    atWork := fun run member => ?_
    attended := fun other operation found running => ?_
    recorded := sound.recorded
    once := sound.once
    tallied := fun other => ?_
  }
  · change (scene.store name next).stored? other = _ at found
    rw [stored?_store] at found
    split at found
    · cases found
      exact ⟨Nat.le_of_eq full, fun _ => full⟩
    · exact sound.operations other operation found
  · simp only [List.map_cons, List.nodup_cons, List.mem_map, not_exists, not_and]
    exact ⟨fun run member => absent run member, sound.alone⟩
  · change ∃ operation, (scene.store name next).stored? run.operation = some operation ∧ _
    rw [stored?_store]
    rcases List.mem_cons.mp member with rfl | member
    · exact ⟨next, if_pos rfl, by simp [running, Phase.isRunning], rfl, rfl⟩
    · rw [if_neg (absent run member)]
      exact sound.atWork run member
  · change (scene.store name next).stored? other = _ at found
    rw [stored?_store] at found
    split at found
    · next same => exact ⟨_, List.mem_cons_self, same.symm⟩
    · obtain ⟨run, member, same⟩ := sound.attended other operation found running
      exact ⟨run, List.mem_cons_of_mem _ member, same⟩
  · have finished_eq : (scene.store name next).hasFinished other = scene.hasFinished other := by
      rw [hasFinished_store]
      split
      · next same =>
          subst same
          cases found : scene.stored? other with
          | none => simp [running, hasFinished, Phase.isFinished, found]
          | some operation =>
              simp [running, hasFinished, Phase.isFinished, found, idle operation found]
      · rfl
    change _ ↔ (scene.store name next).hasFinished other
    rw [finished_eq]
    exact sound.tallied other

/-- Of the runs at work without the one in a place, none is for the name of that one. -/
theorem IsSound.mem_eraseIdx (sound : scene.IsSound) {place : Nat} {run rival : Run α}
    (at_place : scene.runs[place]? = some run) (member : rival ∈ scene.runs.eraseIdx place)
    : rival ∈ scene.runs ∧ rival.operation ≠ run.operation := by
  obtain ⟨other, differs, at_other⟩ := List.mem_eraseIdx_iff_getElem?.mp member
  exact ⟨List.mem_of_getElem? at_other, sound.operation_ne at_place at_other differs⟩

/-- The other runs stay tied to their operations when a run ends. -/
theorem IsSound.atWork_ended (sound : scene.IsSound) {place : Nat} {run : Run α}
    (at_place : scene.runs[place]? = some run) (next : Operation α ε) (rival : Run α)
    (member : rival ∈ scene.runs.eraseIdx place)
    : ∃ operation, (scene.store run.operation next).stored? rival.operation = some operation
        ∧ operation.phase.isRunning
        ∧ operation.items = rival.items
        ∧ rival.lifetime = scene.removals rival.operation := by
  obtain ⟨atWork, differs⟩ := sound.mem_eraseIdx at_place member
  rw [stored?_store, if_neg differs]
  exact sound.atWork rival atWork

/-- The other running operations keep their runs when a run ends in a phase of rest. -/
theorem IsSound.attended_ended (sound : scene.IsSound) {place : Nat} {run : Run α}
    (at_place : scene.runs[place]? = some run) {next : Operation α ε}
    (resting : next.phase.isRunning = false) (name : String) (operation : Operation α ε)
    (found : (scene.store run.operation next).stored? name = some operation)
    (running : operation.phase.isRunning)
    : ∃ rival ∈ scene.runs.eraseIdx place, rival.operation = name := by
  rw [stored?_store] at found
  split at found
  · cases found
    rw [resting] at running
    cases running
  · next differs =>
      obtain ⟨rival, member, same⟩ := sound.attended name operation found running
      obtain ⟨other, at_other⟩ := List.mem_iff_getElem?.mp member
      refine ⟨rival, List.mem_eraseIdx_iff_getElem?.mpr ⟨other, ?_, at_other⟩, same⟩
      rintro rfl
      cases at_place.symm.trans at_other
      exact differs same.symm

/-- Ending a run in whatever phase leaves a sound operation. -/
theorem IsSound.operations_ended (sound : scene.IsSound) {run : Run α}
    (member : run ∈ scene.runs) {operation : Operation α ε}
    (found : scene.stored? run.operation = some operation) (phase : Phase α ε) (name : String)
    (known : Operation α ε)
    (stored : (scene.store run.operation { operation with phase }).stored? name = some known)
    : known.IsSound := by
  rw [stored?_store] at stored
  split at stored
  · cases stored
    have running := sound.isRunning member found
    have full := (sound.operations _ _ found).full (Phase.ne_idle_of_isRunning running)
    exact ⟨Nat.le_of_eq full, fun _ => full⟩
  · exact sound.operations name known stored

/-- Soundness survives the end of a run that is complete. -/
theorem IsSound.completed (sound : scene.IsSound) {place : Nat} {run : Run α}
    {operation : Operation α ε} (at_place : scene.runs[place]? = some run)
    (found : scene.stored? run.operation = some operation) (verdict : Except ε α) (now : Seconds)
    : IsSound { scene.store run.operation { operation with phase := .finished verdict now } with
        runs := scene.runs.eraseIdx place
        completions := (run.operation, run.lifetime) :: scene.completions } := by
  have member := List.mem_of_getElem? at_place
  obtain ⟨-, -, -, -, lifetime⟩ := sound.atWork run member
  refine {
    operations := sound.operations_ended member found _
    alone := ((List.eraseIdx_sublist _ _).map _).nodup sound.alone
    atWork := sound.atWork_ended at_place _
    attended := sound.attended_ended at_place rfl
    recorded := fun name past recorded => ?_
    once := ?_
    tallied := fun name => ?_
  }
  · rcases List.mem_cons.mp recorded with same | recorded
    · cases same
      exact Nat.le_of_eq lifetime
    · exact sound.recorded name past recorded
  · -- If this lifetime were recorded already, its operation would be finished, not running.
    refine List.nodup_cons.mpr ⟨fun known => ?_, sound.once⟩
    rw [lifetime, sound.tallied, sound.unfinished member] at known
    cases known
  · let next : Operation α ε := { operation with phase := .finished verdict now }
    change (name, scene.removals name) ∈ _ ↔ (scene.store run.operation next).hasFinished name
    rw [hasFinished_store, List.mem_cons, Prod.mk.injEq]
    split
    · next same =>
        subst same
        simp [next, lifetime, Phase.isFinished]
    · next differs => simp only [differs, false_and, false_or, sound.tallied]

/-- Soundness survives the end of a run that was interrupted. -/
theorem IsSound.interrupted (sound : scene.IsSound) {place : Nat} {run : Run α}
    {operation : Operation α ε} (at_place : scene.runs[place]? = some run)
    (found : scene.stored? run.operation = some operation)
    : IsSound { scene.store run.operation { operation with phase := .idle } with
        runs := scene.runs.eraseIdx place } := by
  have member := List.mem_of_getElem? at_place
  refine {
    operations := sound.operations_ended member found _
    alone := ((List.eraseIdx_sublist _ _).map _).nodup sound.alone
    atWork := sound.atWork_ended at_place _
    attended := sound.attended_ended at_place rfl
    recorded := sound.recorded
    once := sound.once
    tallied := fun name => ?_
  }
  change (name, scene.removals name) ∈ scene.completions
    ↔ (scene.store run.operation { operation with phase := .idle }).hasFinished name
  rw [sound.tallied, hasFinished_store]
  split
  · next same =>
      subst same
      rw [sound.unfinished member]
      simp [Phase.isFinished]
  · rfl

/-- Soundness survives the removal of an operation that is not running. -/
theorem IsSound.removed (sound : scene.IsSound) {name : String} {operation : Operation α ε}
    (found : scene.stored? name = some operation) (resting : operation.phase.isRunning = false)
    : (scene.remove name { operations := scene.barrier.operations.drop name }).IsSound := by
  refine {
    operations := fun other known stored => ?_
    alone := sound.alone
    atWork := fun run member => ?_
    attended := fun other known stored running => ?_
    recorded := fun other lifetime recorded => ?_
    once := sound.once
    tallied := fun other => ?_
  }
  · rw [stored?_remove] at stored
    split at stored
    · cases stored
    · exact sound.operations other known stored
  · have differs : run.operation ≠ name := by
      rintro rfl
      rw [sound.isRunning member found] at resting
      cases resting
    rw [stored?_remove, if_neg differs]
    simp only [remove, Function.update_of_ne differs]
    exact sound.atWork run member
  · rw [stored?_remove] at stored
    split at stored
    · cases stored
    · exact sound.attended other known stored running
  · have earlier := sound.recorded other lifetime recorded
    by_cases same : other = name
    · subst same
      simp only [remove, Function.update_self]
      omega
    · simpa only [remove, Function.update_of_ne same] using earlier
  · rw [hasFinished, stored?_remove]
    by_cases same : other = name
    · -- Nothing is recorded for the lifetime that begins now.
      subst same
      simp only [remove, Function.update_self, if_true]
      refine iff_of_false (fun recorded => ?_) (by simp)
      have := sound.recorded _ _ recorded
      omega
    · simp only [remove, if_neg same, Function.update_of_ne same]
      exact sound.tallied other

/-- Soundness survives every change. -/
theorem IsSound.of_change (sound : scene.IsSound) {move : Move α ε} {next : Scene α ε}
    (change : scene.Change move next)
    : next.IsSound := by
  cases change with
  | same => exact sound
  | kept nextSound new old => exact sound.kept nextSound new old
  | started idle running full => exact sound.started idle running full
  | completed at_place found => exact sound.completed at_place found _ _
  | interrupted at_place found => exact sound.interrupted at_place found
  | removed found resting => exact sound.removed found resting

/-- A new barrier is sound: nothing is stored, at work or recorded. -/
theorem isSound_new : ({} : Scene α ε).IsSound where
  operations _ _ found := by cases found
  alone := List.nodup_nil
  atWork _ member := by cases member
  attended _ _ found := by cases found
  recorded _ _ member := by cases member
  once := List.nodup_nil
  tallied _ := by simp [hasFinished, stored?]

/-- Whatever steps the callers take, the scene that they reach is sound. -/
theorem isSound_reached (moves : List (Move α ε)) : (reached moves).IsSound := by
  suffices ∀ scene : Scene α ε, scene.IsSound → (moves.foldl after scene).IsSound from
    this {} isSound_new
  induction moves with
  | nil => exact fun _ sound => sound
  | cons move moves ih => exact fun scene sound => ih _ (sound.of_change (sound.change move))

/-- Only the end of a run changes the operation that it is at work for. -/
theorem IsSound.stored?_after (sound : scene.IsSound) {place : Nat} {run : Run α}
    {operation : Operation α ε} (at_place : scene.runs[place]? = some run)
    (found : scene.stored? run.operation = some operation) (move : Move α ε)
    (goesOn : ∀ ending now, move ≠ .conclude place ending now)
    : (scene.after move).stored? run.operation = some operation := by
  have member := List.mem_of_getElem? at_place
  have running := sound.isRunning member found
  have begun := Phase.ne_idle_of_isRunning running
  generalize following : scene.after move = next
  have change := sound.change move
  rw [following] at change
  cases change with
  | same => exact found
  | kept _ _ old =>
      rw [stored?_store]
      split
      · next same => rw [(old operation (same ▸ found)).2 begun]
      · exact found
  | @started _ name _ _ idle _ _ =>
      refine (stored?_store scene name run.operation _).trans ?_
      split
      · next same => exact absurd (idle operation (same ▸ found)) begun
      · exact found
  | completed at_other =>
      refine (sound.stored?_ended at_place at_other ?_ _).trans found
      rintro rfl
      exact goesOn _ _ rfl
  | interrupted at_other =>
      refine (sound.stored?_ended at_place at_other ?_ _).trans found
      rintro rfl
      exact goesOn _ _ rfl
  | @removed _ name other stored resting =>
      rw [stored?_remove]
      split
      · next same =>
          cases (same ▸ stored : scene.stored? run.operation = some other).symm.trans found
          rw [running] at resting
          cases resting
      · exact found

/-- A run starts on all the items of its operation, which are as many as it waits for. -/
theorem IsSound.started_full (sound : scene.IsSound) {contribution : Contribution α}
    {now : Seconds} {items : Ledger α} {next : Barrier α ε}
    (starts : scene.barrier.enter contribution now = (.mustRun items, next))
    : ∃ operation, next.operations.get? contribution.operation = some operation
        ∧ operation.items = items
        ∧ items.keys.length = operation.howMany := by
  have later := sound.of_change (sound.change (.enter contribution now))
  simp only [after, starts] at later
  obtain ⟨operation, found, running, same, -⟩ := later.atWork _ (List.mem_cons_self ..)
  have full := (later.operations _ _ found).full (Phase.ne_idle_of_isRunning running)
  refine ⟨operation, found, same, ?_⟩
  have items_eq : operation.items = items := same
  rw [Ledger.keys, List.length_map, ← items_eq]
  exact full

/-- A running operation is neither forgotten nor evicted: forgetting it is refused, evicting
passes it over, and nothing changes.
-/
theorem refused_of_running {name : String} {operation : Operation α ε}
    (found : scene.stored? name = some operation) (running : operation.phase.isRunning)
    : (scene.barrier.forget name = .error (.stillRunning name)
        ∧ scene.after (.forget name) = scene)
      ∧ ∀ age now, scene.barrier.evict name age now = (.ok false, scene.barrier)
          ∧ scene.after (.evict name age now) = scene := by
  have stored : scene.barrier.operations.get? name = some operation := found
  cases phase : operation.phase with
  | running since => simp only [after, Barrier.forget, Barrier.evict, stored, phase, and_self,
      implies_true]
  | idle | finished _ _ => simp [phase, Phase.isRunning] at running

/-- Whatever the order in which the steps of all callers come, at most one run is at work for a
name. Of the operations that have the name one after the other, each is run to an end at most
once, and is finished exactly when it has been. A run starts when all items are there that its
operation waits for, each recorded once. While it is at work its operation stays what it is: it
is not forgotten or evicted, and only the end of that run changes it.
-/
theorem runs_exactly_once (moves : List (Move α ε)) (name : String)
    : let scene := reached moves
      (scene.runs.map Run.operation).count name ≤ 1
      ∧ (∀ lifetime, scene.completions.count (name, lifetime) ≤ 1)
      ∧ (∀ operation, scene.stored? name = some operation
          → (operation.phase.isFinished
              ↔ scene.completions.count (name, scene.removals name) = 1))
      ∧ (∀ contribution now items next, contribution.operation = name
          → scene.barrier.enter contribution now = (.mustRun items, next)
          → ∃ operation, next.operations.get? name = some operation
              ∧ operation.items = items
              ∧ items.keys.Nodup
              ∧ items.keys.length = operation.howMany)
      ∧ (∀ place run, scene.runs[place]? = some run → run.operation = name
          → ∃ operation, scene.stored? name = some operation
              ∧ operation.phase.isRunning
              ∧ operation.items = run.items
              ∧ run.lifetime = scene.removals name
              ∧ (scene.barrier.forget name = .error (.stillRunning name)
                  ∧ scene.after (.forget name) = scene)
              ∧ (∀ age now, scene.barrier.evict name age now = (.ok false, scene.barrier)
                  ∧ scene.after (.evict name age now) = scene)
              ∧ ∀ move, (∀ ending now, move ≠ .conclude place ending now)
                  → (scene.after move).stored? name = some operation) := by
  intro scene
  have sound : scene.IsSound := isSound_reached moves
  have once := List.nodup_iff_count_le_one.mp sound.once
  refine ⟨List.nodup_iff_count_le_one.mp sound.alone name, fun lifetime => once _, ?_, ?_, ?_⟩
  · intro operation found
    have tallied := sound.tallied name
    rw [hasFinished, found, Option.any_some] at tallied
    rw [← tallied, ← List.count_pos_iff]
    have := once (name, scene.removals name)
    omega
  · rintro contribution now items next rfl starts
    obtain ⟨operation, found, same, full⟩ := sound.started_full starts
    exact ⟨operation, found, same, items.distinct, full⟩
  · rintro place run at_place rfl
    obtain ⟨operation, found, running, items, lifetime⟩ :=
      sound.atWork run (List.mem_of_getElem? at_place)
    obtain ⟨forgetting, evicting⟩ := refused_of_running found running
    exact ⟨operation, found, running, items, lifetime, forgetting, evicting,
      sound.stored?_after at_place found⟩

/-- With two callers of two, the second finds the run at work for it, and what other callers do
in the meantime leaves the operation as it is.
-/
theorem runs_exactly_once_pair
    : let contribution (item : String) : Contribution Nat :=
        { operation := "g", item, howMany := some 2, value := 7, client := 0 }
      let scene : Scene Nat Nat :=
        reached [.enter (contribution "a") 0, .enter (contribution "b") 0]
      scene.runs.length = 1
      ∧ ∃ operation, scene.stored? "g" = some operation
          ∧ (scene.after (.enter (contribution "c") 0)).stored? "g" = some operation
          ∧ (scene.after (.evict "g" 0 9)).stored? "g" = some operation := by
  intro contribution scene
  have atWork : scene.runs[0]?.map Run.operation = some "g" := by decide
  obtain ⟨run, at_place, name⟩ := Option.map_eq_some_iff.mp atWork
  obtain ⟨-, -, -, -, kept⟩ := runs_exactly_once
    [.enter (contribution "a") 0, .enter (contribution "b") 0] "g"
  obtain ⟨operation, found, -, -, -, -, -, stays⟩ := kept 0 run at_place name
  exact ⟨by decide, operation, found, stays _ (by simp), stays _ (by simp)⟩

end Scene

end DiscVolume.Barrier
