/-! Sequences of steps that carry a state and may fail: a sequence goes on where its first step
succeeds, and stops where it fails.
-/

namespace DiscVolume.Sequencing

variable {state next : σ}

/-- A sequence goes on with the value of its first step. -/
theorem bind_of_ok {first : EStateM ε σ α} {others : α → EStateM ε σ β} {value : α}
    (h : first state = .ok value next)
    : (first >>= others) state = others value next := by
  change EStateM.bind first others state = _
  simp only [EStateM.bind, h]

/-- A sequence fails when its first step does. -/
theorem bind_of_error {first : EStateM ε σ α} {others : α → EStateM ε σ β} {failure : ε}
    (h : first state = .error failure next)
    : (first >>= others) state = .error failure next := by
  change EStateM.bind first others state = _
  simp only [EStateM.bind, h]

/-- A sequence succeeds when its first step does and the others do where it stopped. -/
theorem bind_ok_iff {first : EStateM ε σ α} {others : α → EStateM ε σ β} {value : β}
    : (first >>= others) state = .ok value next
      ↔ ∃ found middle, first state = .ok found middle ∧ others found middle = .ok value next := by
  cases h : first state with
  | ok found middle =>
      rw [bind_of_ok h]
      constructor
      · intro rest
        exact ⟨found, middle, rfl, rest⟩
      · rintro ⟨_, _, same, rest⟩
        cases same
        exact rest
  | error failure middle =>
      rw [bind_of_error h]
      simp

/-- A function of what a step finds fails when the step does. -/
theorem map_of_error {step : EStateM ε σ α} {f : α → β} {failure : ε}
    (h : step state = .error failure next)
    : (f <$> step) state = .error failure next := by
  change EStateM.map f step state = _
  simp only [EStateM.map, h]

/-- A step fails where a function of what it finds does. -/
theorem error_of_map {step : EStateM ε σ α} {f : α → β} {failure : ε}
    (h : (f <$> step) state = .error failure next)
    : step state = .error failure next := by
  change EStateM.map f step state = _ at h
  cases found : step state with
  | ok value middle => simp [EStateM.map, found] at h
  | error own middle =>
      simp only [EStateM.map, found] at h
      cases h
      rfl

/-- A function of what a step finds is found where the step succeeds. -/
theorem map_eq_ok {step : EStateM ε σ α} {f : α → β} {value : β}
    : (f <$> step) state = .ok value next
      ↔ ∃ found, step state = .ok found next ∧ f found = value := by
  change EStateM.map f step state = _ ↔ _
  cases h : step state with
  | ok found middle =>
      simp only [EStateM.map, h, EStateM.Result.ok.injEq]
      constructor
      · rintro ⟨rfl, rfl⟩
        exact ⟨found, ⟨rfl, rfl⟩, rfl⟩
      · rintro ⟨_, ⟨rfl, rfl⟩, rfl⟩
        exact ⟨rfl, rfl⟩
  | error failure middle => simp [EStateM.map, h]

end DiscVolume.Sequencing
