import DiscVolume.Proofs.Medium.Serving

/-! Steps that find the same on every ready medium. What a served medium keeps between requests has
no part in what is found, so a step that reads from it has an outcome of its own.
-/

namespace DiscVolume.Access

open Sequencing

/-- Settling an outcome reads nothing. -/
theorem settle_eq_ok {outcome : Except Failure α} {value : α} {medium after : σ}
    : settle outcome medium = .ok value after ↔ outcome = .ok value ∧ after = medium := by
  cases outcome with
  | ok found =>
      constructor
      · intro settled
        cases settled
        exact ⟨rfl, rfl⟩
      · rintro ⟨same, rfl⟩
        cases same
        rfl
  | error failure =>
      constructor
      · intro settled
        cases settled
      · rintro ⟨same, -⟩
        cases same

/-- Only faults of the medium are blamed on the image. -/
theorem blaming_eq_ok {activity : Activity} {step : Access σ α} {value : α} {medium after : σ}
    : blaming activity step medium = .ok value after ↔ step medium = .ok value after := by
  unfold blaming
  split
  · next fault later failed =>
      rw [failed]
      split <;> simp
  · rfl

theorem blaming_of_error {activity : Activity} {step : Access σ α} {failure : Failure}
    {medium after : σ} (failed : step medium = .error failure after)
    (ownFault : ∀ fault, failure ≠ .medium fault)
    : blaming activity step medium = .error failure after := by
  unfold blaming
  split
  · next fault later same =>
      rw [failed] at same
      cases same
      exact absurd rfl (ownFault fault)
  · exact failed

/-- On every ready medium a step has the same outcome, and it leaves the medium ready. -/
def Answers (step : Access σ α) (ready : σ → Prop) (outcome : Except Failure α) : Prop :=
  ∀ medium, ready medium → ∃ after, ready after ∧ step medium = settle outcome after

namespace Answers

variable {step : Access σ α} {others : α → Access σ β} {ready : σ → Prop}
variable {outcome : Except Failure α} {medium after : σ} {value : α}

theorem settle (outcome : Except Failure α) (ready : σ → Prop)
    : (Access.settle outcome).Answers ready outcome :=
  fun medium isReady => ⟨medium, isReady, rfl⟩

theorem pure (value : α) (ready : σ → Prop) : Answers (pure value) ready (.ok value) :=
  fun medium isReady => ⟨medium, isReady, rfl⟩

theorem throw (failure : Failure) (ready : σ → Prop)
    : Answers (throw failure : Access σ α) ready (.error failure) :=
  fun medium isReady => ⟨medium, isReady, rfl⟩

/-- Steps in sequence have their outcomes in sequence. -/
theorem bind {f : α → Except Failure β} (first : step.Answers ready outcome)
    (rest : ∀ value, outcome = .ok value → (others value).Answers ready (f value))
    : (step >>= others).Answers ready (outcome >>= f) := by
  intro medium isReady
  obtain ⟨middle, readyMiddle, found⟩ := first medium isReady
  cases outcome with
  | ok value =>
      obtain ⟨after, readyAfter, answer⟩ := rest value rfl middle readyMiddle
      exact ⟨after, readyAfter, (bind_of_ok found).trans answer⟩
  | error failure => exact ⟨middle, readyMiddle, bind_of_error found⟩

/-- What is found on some ready medium is the outcome. -/
theorem of_eq_ok (answers : step.Answers ready outcome) (isReady : ready medium)
    (found : step medium = .ok value after)
    : outcome = .ok value ∧ ready after := by
  obtain ⟨later, readyLater, answer⟩ := answers medium isReady
  rw [found] at answer
  cases outcome with
  | ok _ =>
      cases answer
      exact ⟨rfl, readyLater⟩
  | error _ => cases answer

/-- A step that has an outcome leaves the medium ready. -/
theorem keeps (answers : step.Answers ready outcome) (medium : σ) (value : α) (after : σ)
    (isReady : ready medium) (found : step medium = .ok value after)
    : ready after :=
  (answers.of_eq_ok isReady found).2

end Answers

end DiscVolume.Access
