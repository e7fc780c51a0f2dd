import DiscVolume.Barrier.Session
import Mathlib.Logic.Function.Basic

/-! The callers of one barrier taken together. A caller holds the lock of an operation for one
atomic step at a time, and a run function is at work between two steps of its caller, so the
steps of all callers may come in any order. Which of the operations of one name a run belongs
to is told by the number of operations of that name that were removed before it.
-/

namespace DiscVolume

/-- Whether a run that ends like this counts as made. -/
def Ending.completesRun : Ending α ε → Bool
  | .returned _ | .raised _ => true
  | .interrupted => false

namespace Phase

def isRunning : Phase α ε → Bool
  | .running _ => true
  | .idle | .finished _ _ => false

def isFinished : Phase α ε → Bool
  | .finished _ _ => true
  | .idle | .running _ => false

theorem ne_idle_of_isRunning {phase : Phase α ε} (running : phase.isRunning) : phase ≠ .idle := by
  rintro rfl
  cases running

end Phase

namespace Barrier

/-- A run function at work for an operation. -/
structure Run (α : Type) where
  operation : String
  /-- How many operations of the same name had been removed when the run started. -/
  lifetime : Nat
  items : Ledger α

/-- An atomic step of one of the callers. -/
inductive Move (α ε : Type) where
  /-- A contribution, up to its answer or to the start of the run that falls to the caller. -/
  | enter (contribution : Contribution α) (now : Seconds)
  /-- The end of a run function, given by its place among those at work. -/
  | conclude (place : Nat) (ending : Ending α ε) (now : Seconds)
  | forget (operation : String)
  | evict (operation : String) (age now : Seconds)

/-- A barrier with the run functions at work for it, and a record of what has become of its
operations.
-/
structure Scene (α ε : Type) where
  barrier : Barrier α ε := {}
  /-- The run functions at work, the last started first. -/
  runs : List (Run α) := []
  /-- The names and lifetimes for which a run was complete, the last first. -/
  completions : List (String × Nat) := []
  /-- How many operations of each name have been removed. -/
  removals : String → Nat := fun _ => 0

namespace Scene

/-- The operation that goes by a name at present. -/
def stored? (scene : Scene α ε) (name : String) : Option (Operation α ε) :=
  scene.barrier.operations.get? name

/-- Counts the removal of an operation. -/
def remove (scene : Scene α ε) (name : String) (rest : Barrier α ε) : Scene α ε :=
  { scene with
    barrier := rest
    removals := Function.update scene.removals name (scene.removals name + 1) }

/-- The scene after a step. The end of a run that is not at work is no step. -/
def after (scene : Scene α ε) : Move α ε → Scene α ε
  | .enter contribution now =>
      match scene.barrier.enter contribution now with
      | (.mustRun items, barrier) =>
          let name := contribution.operation
          { scene with barrier, runs := ⟨name, scene.removals name, items⟩ :: scene.runs }
      | (.answered _, barrier) | (.untimed _, barrier) => { scene with barrier }
  | .conclude place ending now =>
      match scene.runs[place]? with
      | none => scene
      | some run =>
          { scene with
            barrier := (Session.conclude run.operation ending now scene.barrier).2
            runs := scene.runs.eraseIdx place
            completions :=
              if ending.completesRun then (run.operation, run.lifetime) :: scene.completions
              else scene.completions }
  | .forget name =>
      match scene.barrier.forget name with
      | .ok (true, rest) => scene.remove name rest
      | .ok (false, barrier) => { scene with barrier }
      | .error _ => scene
  | .evict name age now =>
      match scene.barrier.evict name age now with
      | (.ok true, rest) => scene.remove name rest
      | (.ok false, barrier) | (.error _, barrier) => { scene with barrier }

/-- The scene that a new barrier is brought to by the steps of its callers, first step first. -/
def reached (moves : List (Move α ε)) : Scene α ε := moves.foldl after {}

end Scene

end Barrier

end DiscVolume
