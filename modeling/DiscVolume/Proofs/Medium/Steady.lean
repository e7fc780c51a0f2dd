import DiscVolume.Proofs.Medium.Answers
import Mathlib.Tactic.Choose

/-! Steps that have some outcome of their own. What it is need not be known: it is enough that the
step finds or misses the same on every ready medium.
-/

namespace DiscVolume

namespace Access

/-- On all ready media a step has one outcome. -/
def IsSteady (step : Access σ α) (ready : σ → Prop) : Prop :=
  ∃ outcome, step.Answers ready outcome

namespace IsSteady

variable {step : Access σ α} {others : α → Access σ β} {ready : σ → Prop}

theorem pure (value : α) : IsSteady (Pure.pure value : Access σ α) ready :=
  ⟨.ok value, .pure value ready⟩

theorem throw (failure : Failure) : IsSteady (throw failure : Access σ α) ready :=
  ⟨.error failure, .throw failure ready⟩

theorem settle (outcome : Except Failure α) : IsSteady (settle outcome : Access σ α) ready :=
  ⟨outcome, .settle outcome ready⟩

/-- Steady steps are steady in sequence. -/
theorem bind (first : step.IsSteady ready) (rest : ∀ value, (others value).IsSteady ready)
    : (step >>= others).IsSteady ready := by
  obtain ⟨outcome, answers⟩ := first
  choose outcomes answersOthers using rest
  exact ⟨outcome >>= outcomes, answers.bind (fun value _ => answersOthers value)⟩

/-- Where a fault is blamed depends on the fault alone. -/
theorem blaming {activity : Activity} (steady : step.IsSteady ready)
    : (blaming activity step).IsSteady ready := by
  obtain ⟨outcome, answers⟩ := steady
  cases outcome with
  | ok value =>
      refine ⟨.ok value, fun medium isReady => ?_⟩
      obtain ⟨after, readyAfter, answer⟩ := answers medium isReady
      exact ⟨after, readyAfter, blaming_eq_ok.mpr answer⟩
  | error failure =>
      by_cases atFault : ∃ fault, failure = .medium fault ∧ fault.kind.concernsData = true
      · obtain ⟨fault, rfl, concerns⟩ := atFault
        refine ⟨.error (.malformed (.reportedByMedium activity fault.message)),
          fun medium isReady => ?_⟩
        obtain ⟨after, readyAfter, answer⟩ := answers medium isReady
        refine ⟨after, readyAfter, ?_⟩
        have answer : step medium = .error (.medium fault) after := answer
        simp only [Access.blaming, answer, concerns, if_true]
        rfl
      · refine ⟨.error failure, fun medium isReady => ?_⟩
        obtain ⟨after, readyAfter, answer⟩ := answers medium isReady
        refine ⟨after, readyAfter, ?_⟩
        have answer : step medium = .error failure after := answer
        cases failure with
        | medium fault =>
            have unconcerned : ¬ fault.kind.concernsData = true :=
              fun concerns => atFault ⟨fault, rfl, concerns⟩
            simp only [Access.blaming, answer, if_neg unconcerned]
            rfl
        | _ =>
            simp only [Access.blaming, answer]
            rfl

/-- What a steady step finds on one ready medium it finds on all of them. -/
theorem answers_of_ok {medium after : σ} {value : α} (steady : step.IsSteady ready)
    (isReady : ready medium) (found : step medium = .ok value after)
    : step.Answers ready (.ok value) := by
  obtain ⟨outcome, answers⟩ := steady
  obtain ⟨rfl, -⟩ := answers.of_eq_ok isReady found
  exact answers

end IsSteady

end Access

namespace Source

/-- Requests for bytes have the same answers on all ready media. -/
def IsSteady (source : Source σ) (ready : σ → Prop) : Prop :=
  ∀ offset length : Nat, (source.readExactly offset length).IsSteady ready

/-- Media that were ready still are when bytes have been read from them. -/
def LeavesReady (source : Source σ) (ready : σ → Prop) : Prop :=
  ∀ (offset length : Nat) medium data after, ready medium
    → source.readExactly offset length medium = .ok data after → ready after

theorem IsSteady.leavesReady {source : Source σ} {ready : σ → Prop}
    (steady : source.IsSteady ready)
    : source.LeavesReady ready := by
  intro offset length medium data after isReady found
  obtain ⟨outcome, answers⟩ := steady offset length
  exact (answers.of_eq_ok isReady found).2

/-- What is read from a source never changes, and taking notes of what is read changes nothing. -/
structure IsUnchanging (source : Source σ) (ready : σ → Prop) : Prop where
  isSteady : source.IsSteady ready
  ready_note : ∀ note medium, ready medium → ready (source.note note medium)

theorem IsUnchanging.tell_answers {source : Source σ} {ready : σ → Prop}
    (unchanging : source.IsUnchanging ready) (note : Note)
    : (source.tell note).Answers ready (.ok ()) :=
  fun medium isReady => ⟨source.note note medium, unchanging.ready_note note medium isReady, rfl⟩

/-- Packed contents never change. -/
theorem IsUnchanging.ofContents (contents : ByteArray)
    : (Source.ofContents contents : Source σ).IsUnchanging (fun _ => True) where
  isSteady offset length := by
    refine (Access.IsSteady.pure _).bind (fun data => ?_)
    split
    · exact .pure _
    · exact .throw _
  ready_note _ _ isReady := isReady

end Source

namespace ImageFile

open Sequencing

/-- A file that stays open has one answer to every request, however often its position has been
moved, and also to requests that files cannot deal with.
-/
theorem source_isUnchanging (contents : ByteArray) (capacity : Nat)
    : (source capacity).IsUnchanging (Holds contents) where
  ready_note _ _ holds := holds
  isSteady offset length := by
    by_cases offsetBounded : (offset : Int) < indexLimit
    · by_cases lengthBounded : (length : Int) < indexLimit
      · refine ⟨if (sliceOf contents offset length).length = length then
            .ok (sliceOf contents offset length)
          else .error (.truncated (.medium length offset (sliceOf contents offset length).length)),
          fun file holds => ?_⟩
        obtain ⟨after, holdsAfter, answer⟩ := readAt_eq holds offsetBounded lengthBounded
        have counted : (source capacity).readExactly offset length file
            = if (sliceOf contents offset length).length = length then
                .ok (sliceOf contents offset length) after
              else
                .error (.truncated (.medium length offset (sliceOf contents offset length).length))
                  after :=
          Source.readExactly_of_counted answer
        refine ⟨after, holdsAfter, counted.trans ?_⟩
        split <;> rfl
      · refine ⟨.error (.medium .countTooLarge), fun file holds => ?_⟩
        refine ⟨{ file with position := offset }, ⟨holds.isOpen, holds.contents_eq⟩, ?_⟩
        have tooLarge : isIndex length = false := by
          simp [isIndex, lengthBounded]
        have failed : read length { file with position := offset }
            = .error (.medium .countTooLarge) { file with position := offset } := by
          simp [read, tooLarge]
        have answer : readAt offset length file
            = .error (.medium .countTooLarge) { file with position := offset } := by
          rw [readAt, bind_of_ok (seek_eq_ok holds.isOpen offsetBounded), bind_of_error failed]
        exact bind_of_error answer
    · refine ⟨.error (.medium .offsetTooLarge), fun file holds => ⟨file, holds, ?_⟩⟩
      have tooLarge : isIndex offset = false := by
        simp [isIndex, offsetBounded]
      have failed : seek offset file = .error (.medium .offsetTooLarge) file := by
        simp [seek, tooLarge]
      have answer : readAt offset length file = .error (.medium .offsetTooLarge) file := by
        rw [readAt, bind_of_error failed]
      exact bind_of_error answer

end ImageFile

end DiscVolume
