import DiscVolume.Proofs.Cursor.Verdicts
import DiscVolume.Proofs.Medium.Answers

/-! Steps that fail in certain ways only. On a ready medium such a step succeeds or fails as is
allowed, and it leaves the medium ready in any case.
-/

namespace DiscVolume

open Sequencing

namespace Access

/-- A step has ended in some state, and has not failed but as is allowed. -/
def Ends (result : EStateM.Result Failure σ α) (kept : σ → Prop) (allowed : Failure → Prop)
    : Prop :=
  match result with
  | .ok _ after => kept after
  | .error failure after => kept after ∧ allowed failure

theorem Ends.mono {result : EStateM.Result Failure σ α} {kept looser : σ → Prop}
    {allowed wider : Failure → Prop} (ends : Ends result kept allowed)
    (loose : ∀ after, kept after → looser after) (wide : ∀ failure, allowed failure → wider failure)
    : Ends result looser wider := by
  cases result with
  | ok value after => exact loose after ends
  | error failure after => exact ⟨loose after ends.1, wide failure ends.2⟩

/-- Steps in sequence end well if the first of them does, and the others from wherever it ends. -/
theorem Ends.bind {step : Access σ α} {others : α → Access σ β} {state : σ} {kept : σ → Prop}
    {allowed : Failure → Prop} (first : Ends (step state) kept allowed)
    (rest : ∀ value after, step state = .ok value after → kept after
      → Ends (others value after) kept allowed)
    : Ends ((step >>= others) state) kept allowed := by
  cases result : step state with
  | ok value after =>
      rw [result] at first
      rw [bind_of_ok result]
      exact rest value after result first
  | error failure after =>
      rw [result] at first
      rw [bind_of_error result]
      exact first

/-- A function of what a step finds is found or missed as that is. -/
theorem Ends.andPure {step : Access σ α} {f : α → β} {state : σ} {kept : σ → Prop}
    {allowed : Failure → Prop} (ends : Ends (step state) kept allowed)
    : Ends ((step >>= fun value => Pure.pure (f value)) state) kept allowed :=
  ends.bind (fun _ _ _ isKept => isKept)

/-- On a ready medium a step fails only as is allowed, and it leaves the medium ready. -/
def FailsOnly (step : Access σ α) (ready : σ → Prop) (allowed : Failure → Prop) : Prop :=
  ∀ medium, ready medium → Ends (step medium) ready allowed

namespace FailsOnly

variable {step : Access σ α} {others : α → Access σ β} {ready : σ → Prop}
variable {allowed wider : Failure → Prop} {medium after : σ} {value : α} {failure : Failure}

theorem ready_of_ok (only : step.FailsOnly ready allowed) (isReady : ready medium)
    (found : step medium = .ok value after)
    : ready after := by
  have result := only medium isReady
  rwa [found] at result

theorem of_error (only : step.FailsOnly ready allowed) (isReady : ready medium)
    (failed : step medium = .error failure after)
    : ready after ∧ allowed failure := by
  have result := only medium isReady
  rwa [failed] at result

theorem mono (only : step.FailsOnly ready allowed)
    (wide : ∀ failure, allowed failure → wider failure)
    : step.FailsOnly ready wider :=
  fun medium isReady => (only medium isReady).mono (fun _ => id) wide

theorem pure (value : α) : FailsOnly (pure value) ready allowed :=
  fun _ isReady => isReady

theorem throw (isAllowed : allowed failure)
    : FailsOnly (throw failure : Access σ α) ready allowed :=
  fun _ isReady => ⟨isReady, isAllowed⟩

/-- A step whose outcome is known fails only if that is a failure. -/
theorem of_answers {outcome : Except Failure α} (answers : step.Answers ready outcome)
    (isAllowed : ∀ failure, outcome = .error failure → allowed failure)
    : step.FailsOnly ready allowed := by
  intro medium isReady
  obtain ⟨after, readyAfter, answer⟩ := answers medium isReady
  rw [answer]
  cases outcome with
  | ok value => exact readyAfter
  | error failure => exact ⟨readyAfter, isAllowed failure rfl⟩

/-- Steps in sequence fail as one of them does. What the first of them has found on some ready
medium is known to the others.
-/
theorem bind_found (first : step.FailsOnly ready allowed)
    (rest : ∀ value medium after, ready medium → step medium = .ok value after
      → (others value).FailsOnly ready allowed)
    : (step >>= others).FailsOnly ready allowed :=
  fun medium isReady => (first medium isReady).bind (fun value after found =>
    rest value medium after isReady found after)

theorem bind (first : step.FailsOnly ready allowed)
    (rest : ∀ value, (others value).FailsOnly ready allowed)
    : (step >>= others).FailsOnly ready allowed :=
  first.bind_found (fun value _ _ _ _ => rest value)

/-- Nothing is blamed on the image that is no fault of the medium. -/
theorem blaming {activity : Activity} (only : step.FailsOnly ready allowed)
    (noFault : ∀ fault, ¬ allowed (.medium fault))
    : (blaming activity step).FailsOnly ready allowed := by
  intro medium isReady
  cases result : step medium with
  | ok value after =>
      rw [blaming_eq_ok.mpr result]
      exact only.ready_of_ok isReady result
  | error failure after =>
      obtain ⟨readyAfter, isAllowed⟩ := only.of_error isReady result
      have ownFault : ∀ fault, failure ≠ .medium fault := by
        rintro fault rfl
        exact noFault fault isAllowed
      rw [blaming_of_error result ownFault]
      exact ⟨readyAfter, isAllowed⟩

end FailsOnly

/-- Something is kept beside a medium that is ready. -/
structure Beside (kept : τ → Prop) (ready : σ → Prop) (state : τ × σ) : Prop where
  isKept : kept state.1
  isReady : ready state.2

/-- A step on a medium fails as before when something else is kept beside it. -/
theorem FailsOnly.beside {step : Access σ α} {both : Access (τ × σ) α} {kept : τ → Prop}
    {ready : σ → Prop} {allowed : Failure → Prop} (only : step.FailsOnly ready allowed)
    (found : ∀ first medium value after, step medium = .ok value after
      → both (first, medium) = .ok value (first, after))
    (failed : ∀ first medium failure after, step medium = .error failure after
      → both (first, medium) = .error failure (first, after))
    : both.FailsOnly (Beside kept ready) allowed := by
  rintro ⟨first, medium⟩ ⟨isKept, isReady⟩
  cases result : step medium with
  | ok value after =>
      rw [found first medium value after result]
      exact ⟨isKept, only.ready_of_ok isReady result⟩
  | error failure after =>
      obtain ⟨readyAfter, isAllowed⟩ := only.of_error isReady result
      rw [failed first medium failure after result]
      exact ⟨⟨isKept, readyAfter⟩, isAllowed⟩

end Access

/-- A verdict is never a fault of the medium. -/
theorem Failure.IsVerdict.ne_medium (fault : MediumFault) : ¬ IsVerdict (.medium fault) := nofun

/-- A failure is justified by the image, on which it is a verdict, or by a misuse of some kind. -/
inductive Failure.IsJustified (misuses : Misuse → Prop) : Failure → Prop where
  | verdict {failure : Failure} (isVerdict : failure.IsVerdict) : IsJustified misuses failure
  | misuse {misuse : Misuse} (isMisuse : misuses misuse) : IsJustified misuses (.misused misuse)

theorem Failure.IsJustified.mono {misuses wider : Misuse → Prop} {failure : Failure}
    (justified : failure.IsJustified misuses) (wide : ∀ misuse, misuses misuse → wider misuse)
    : failure.IsJustified wider := by
  cases justified with
  | verdict isVerdict => exact .verdict isVerdict
  | misuse isMisuse => exact .misuse (wide _ isMisuse)

/-- No fault of a medium is justified by the image, or counts as a misuse. -/
theorem Failure.not_isJustified_medium (misuses : Misuse → Prop) (fault : MediumFault)
    : ¬ IsJustified misuses (.medium fault) := by
  intro justified
  cases justified with
  | verdict isVerdict => exact IsVerdict.ne_medium fault isVerdict

/-- Verdicts are justified, whatever counts as a misuse. -/
theorem Access.FailsOnly.justified {step : Access σ α} {ready : σ → Prop}
    (only : step.FailsOnly ready Failure.IsVerdict) (misuses : Misuse → Prop)
    : step.FailsOnly ready (Failure.IsJustified misuses) :=
  only.mono (fun _ => .verdict)

theorem Source.Serves.tell_failsOnly {source : Source σ} {image : Bytes} {ready : σ → Prop}
    {allowed : Failure → Prop} (serves : source.Serves image ready) (note : Note)
    : (source.tell note).FailsOnly ready allowed :=
  fun medium isReady => serves.ready_note note medium isReady

/-- A served source that is asked for bytes within the bounds of files finds that some are missing,
if anything.
-/
theorem Source.Serves.failsOnly {source : Source σ} {image : Bytes} {ready : σ → Prop}
    {offset length : Nat} (serves : source.Serves image ready)
    (offsetBounded : (offset : Int) < indexLimit) (lengthBounded : (length : Int) < indexLimit)
    : (source.readExactly offset length).FailsOnly ready Failure.IsVerdict := by
  intro medium isReady
  obtain ⟨after, readyAfter, answer⟩ :=
    serves.readExactly_eq offset length medium isReady (.inr ⟨offsetBounded, lengthBounded⟩)
  by_cases whole : (image.slice offset length).length = length
  · rw [answer, if_pos whole]
    exact readyAfter
  · rw [answer, if_neg whole]
    exact ⟨readyAfter, .truncated _⟩

end DiscVolume
