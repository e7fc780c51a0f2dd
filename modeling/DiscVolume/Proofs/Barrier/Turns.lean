import DiscVolume.Barrier

/-! What a contribution can do to an operation. All that it can do is said once, by the relation
Advance, and what is kept by every step of a barrier follows from that.
-/

namespace DiscVolume

namespace Operation

/-- An operation has at most the items it waits for, and all of them once it has been run. -/
structure IsSound (operation : Operation α ε) : Prop where
  size_le : operation.items.size ≤ operation.howMany
  full : operation.phase ≠ .idle → operation.items.size = operation.howMany

/-- What a contribution leads to: it leaves the phase of the operation as it is, and changes
nothing in one that is not idle; or it starts the run, with all items there.
-/
inductive Advance (operation : Operation α ε) : Turn α ε → Operation α ε → Prop where
  | stays {turn : Turn α ε} {next : Operation α ε} (noRun : ∀ items, turn ≠ .mustRun items)
    (sound : next.IsSound) (phase : next.phase = operation.phase)
    (unchanged : operation.phase ≠ .idle → next = operation)
    : Advance operation turn next
  | starts {next : Operation α ε} {now : Seconds} (idle : operation.phase = .idle)
    (running : next.phase = .running now) (full : next.items.size = next.howMany)
    : Advance operation (.mustRun next.items) next

/-- Which items an idle operation has is no matter for what can become of it. -/
theorem Advance.of_idle {operation other : Operation α ε} {turn : Turn α ε}
    {next : Operation α ε} (advance : other.Advance turn next)
    (same : other.phase = operation.phase) (idle : operation.phase = .idle)
    : operation.Advance turn next := by
  cases advance with
  | stays noRun sound phase _ =>
      exact .stays noRun sound (phase.trans same) (fun begun => absurd idle begun)
  | starts _ running full => exact .starts idle running full

/-- An operation is complete when it has as many items as it waits for. -/
theorem isComplete_iff {operation : Operation α ε}
    : operation.isComplete ↔ operation.howMany ≤ operation.items.size := by
  simp [isComplete]

/-- While items are missing, no run has been started. -/
theorem IsSound.phase_eq_idle {operation : Operation α ε} (sound : operation.IsSound)
    (incomplete : ¬ operation.isComplete)
    : operation.phase = .idle :=
  Classical.byContradiction fun begun =>
    incomplete (isComplete_iff.mpr (Nat.le_of_eq (sound.full begun).symm))

/-- An item is added only if it is not there, so an incomplete operation stays in bounds. -/
theorem IsSound.collect {operation : Operation α ε} (sound : operation.IsSound)
    (incomplete : ¬ operation.isComplete) (item : String) (value : α)
    : (operation.collect item value).IsSound := by
  rw [isComplete_iff] at incomplete
  unfold Operation.collect
  split
  · exact sound
  · refine ⟨?_, fun begun => ?_⟩
    · simp only [Ledger.size_put]
      split <;> omega
    · have := sound.full begun
      omega

/-- Collecting an item is not a matter of the phase. -/
theorem phase_collect (operation : Operation α ε) (item : String) (value : α)
    : (operation.collect item value).phase = operation.phase := by
  unfold collect
  split <;> rfl

/-- A caller who finds all items there is answered by what has become of the run, or starts it.
-/
theorem IsSound.advance_proceed {operation : Operation α ε} (sound : operation.IsSound)
    (complete : operation.isComplete) (now runTimeout : Seconds)
    : ∃ turn next, operation.proceed now runTimeout = (turn, next)
        ∧ operation.Advance turn next := by
  have stays {turn : Turn α ε} (noRun : ∀ items, turn ≠ .mustRun items)
      : operation.Advance turn operation :=
    .stays noRun sound rfl (fun _ => rfl)
  unfold Operation.proceed
  split
  · exact ⟨_, _, rfl, stays (by simp)⟩
  · split <;> exact ⟨_, _, rfl, stays (by simp)⟩
  · next idle =>
      let started : Operation α ε := { operation with phase := .running now }
      have running : started.phase = .running now := rfl
      have full : started.items.size = started.howMany :=
        Nat.le_antisymm sound.size_le (isComplete_iff.mp complete)
      exact ⟨_, _, rfl, .starts idle running full⟩

/-- A contribution that is admitted advances the operation. Items are taken only while some are
missing, when no run has been started yet.
-/
theorem IsSound.advance_accept {operation : Operation α ε} (sound : operation.IsSound)
    (contribution : Contribution α) (now : Seconds)
    : ∃ turn next, operation.accept contribution now = (turn, next)
        ∧ operation.Advance turn next := by
  unfold Operation.accept
  split
  · next complete => exact sound.advance_proceed complete now contribution.runTimeout
  · next incomplete =>
      have idle := sound.phase_eq_idle incomplete
      have collected := sound.collect incomplete contribution.item contribution.value
      have phase := operation.phase_collect contribution.item contribution.value
      split
      · exact ⟨_, _, rfl, .stays (by simp) sound rfl (fun _ => rfl)⟩
      · exact ⟨_, _, rfl, .stays (by simp) sound rfl (fun _ => rfl)⟩
      · simp only
        split
        · next complete =>
            -- The item that was missing has just come, and the phase is still idle.
            obtain ⟨turn, next, proceeds, advance⟩ :=
              collected.advance_proceed complete now contribution.runTimeout
            exact ⟨turn, next, proceeds, advance.of_idle phase idle⟩
        · exact ⟨_, _, rfl, .stays (by simp) collected phase (fun begun => absurd idle begun)⟩

end Operation

namespace Contribution

/-- What a contribution goes to is the stored operation itself, or a new one without items. -/
theorem admitTo_eq_ok {contribution : Contribution α} {now : Seconds}
    {stored : Option (Operation α ε)} {operation : Operation α ε}
    (h : contribution.admitTo now stored = .ok operation)
    : stored = some operation
      ∨ stored = none ∧ operation.phase = .idle ∧ operation.items = .empty := by
  unfold admitTo at h
  simp only at h
  split at h
  · cases h
  · cases stored with
    | none =>
        cases h
        exact Or.inr ⟨rfl, rfl, rfl⟩
    | some known =>
        simp only at h
        split at h
        · cases h
        · split at h
          · cases h
          · cases h
            exact Or.inl rfl

/-- A contribution to a sound operation, or to none, goes to a sound one. -/
theorem isSound_of_admitTo {contribution : Contribution α} {now : Seconds}
    {stored : Option (Operation α ε)} {operation : Operation α ε}
    (sound : ∀ known ∈ stored, known.IsSound)
    (admits : contribution.admitTo now stored = .ok operation)
    : operation.IsSound := by
  rcases admitTo_eq_ok admits with known | ⟨-, idle, empty⟩
  · exact sound operation known
  · refine ⟨?_, fun begun => absurd idle begun⟩
    simp [empty, Ledger.empty, Ledger.size]

end Contribution

end DiscVolume
