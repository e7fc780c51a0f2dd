import DiscVolume.Proofs.Barrier.Interleaving

/-! Every step on a barrier is a step on the operation of one name: what is answered depends on
that operation alone, and no other operation is changed. For each kind of step there is a function
that says what becomes of the operation, or of the want of one.
-/

namespace DiscVolume

/-- What a contribution leads to, and what is stored under its name afterwards. -/
def Contribution.meet (contribution : Contribution α) (now : Seconds)
    (stored : Option (Operation α ε))
    : Turn α ε × Option (Operation α ε) :=
  match contribution.admitTo now stored with
  | .error refusal => (.answered (.failed refusal), stored)
  | .ok operation => ((operation.accept contribution now).1, (operation.accept contribution now).2)

namespace Ending

/-- What the caller gets whose run function ends. -/
def attempt : Ending α ε → Attempt α ε
  | returned value => .responded (.done (.ok value))
  | raised error => .responded (.done (.error error))
  | interrupted => .interrupted

/-- Where an operation is when its run has ended. -/
def phase (ending : Ending α ε) (now : Seconds) : Phase α ε :=
  match ending with
  | returned value => .finished (.ok value) now
  | raised error => .finished (.error error) now
  | interrupted => .idle

end Ending

namespace Operation

/-- An operation after the end of its run, if it is running. -/
def ended (operation : Operation α ε) (phase : Phase α ε) : Operation α ε :=
  if operation.phase.isRunning then { operation with phase } else operation

/-- What is answered to a request to forget what is stored under a name, and what remains. -/
def forgotten (name : String)
    : Option (Operation α ε) → Except Refusal Bool × Option (Operation α ε)
  | none => (.ok false, none)
  | some operation =>
      if operation.phase.isRunning then (.error (.stillRunning name), some operation)
      else (.ok true, none)

/-- Whether an operation finished an age ago or more, if that can be told. -/
def isDue (operation : Operation α ε) (age now : Seconds) : Except ClockFault Bool :=
  match operation.phase with
  | .finished _ ended => (now.minus ended).map fun passed => !age.exceeds passed
  | .idle | .running _ => .ok false

/-- Whether what is stored is evicted, and what remains. -/
def evicted (age now : Seconds)
    : Option (Operation α ε) → Except ClockFault Bool × Option (Operation α ε)
  | none => (.ok false, none)
  | some operation =>
      match operation.isDue age now with
      | .ok true => (.ok true, none)
      | .ok false => (.ok false, some operation)
      | .error fault => (.error fault, some operation)

end Operation

namespace Barrier

/-- A barrier is as another one but for what is stored under a name. -/
def IsBut (next barrier : Barrier α ε) (name : String) (stored : Option (Operation α ε))
    : Prop :=
  ∀ other, next.operations.get? other
    = if other = name then stored else barrier.operations.get? other

/-- A step depends on what is stored under a name and does to it what a function says. -/
def ActsOn (name : String) (step : Barrier α ε → β × Barrier α ε)
    (act : Option (Operation α ε) → β × Option (Operation α ε))
    : Prop :=
  ∀ barrier, (step barrier).1 = (act (barrier.operations.get? name)).1
    ∧ (step barrier).2.IsBut barrier name (act (barrier.operations.get? name)).2

variable {barrier : Barrier α ε} {name : String}

theorem IsBut.same {stored : Option (Operation α ε)}
    (found : barrier.operations.get? name = stored)
    : barrier.IsBut barrier name stored := by
  intro other
  split
  · next same => rw [same, found]
  · rfl

theorem IsBut.put (barrier : Barrier α ε) (name : String) (operation : Operation α ε)
    : IsBut { operations := barrier.operations.put name operation } barrier name
        (some operation) :=
  Ledger.get?_put _ _ _

theorem IsBut.drop (barrier : Barrier α ε) (name : String)
    : IsBut { operations := barrier.operations.drop name } barrier name none :=
  Ledger.get?_drop _ _

theorem actsOn_enter (contribution : Contribution α) (now : Seconds)
    : ActsOn (ε := ε) contribution.operation (fun barrier => barrier.enter contribution now)
        (contribution.meet now) := by
  intro barrier
  simp only [enter, Contribution.meet]
  cases contribution.admitTo now (barrier.operations.get? contribution.operation) with
  | error refusal => exact ⟨rfl, .same rfl⟩
  | ok operation => exact ⟨rfl, .put _ _ _⟩

theorem endRun_isBut (barrier : Barrier α ε) (name : String) (phase : Phase α ε)
    : (barrier.endRun name phase).IsBut barrier name
        ((barrier.operations.get? name).map (·.ended phase)) := by
  rw [endRun]
  cases found : barrier.operations.get? name with
  | none => exact .same found
  | some operation =>
      cases since : operation.phase with
      | running _ =>
          simp only [Option.map_some, Operation.ended, since, Phase.isRunning, if_true]
          exact .put _ _ _
      | idle | finished _ _ =>
          simp only [Option.map_some, Operation.ended, since, Phase.isRunning,
            Bool.false_eq_true, if_false]
          exact .same found

theorem actsOn_conclude (name : String) (ending : Ending α ε) (now : Seconds)
    : ActsOn name (Session.conclude name ending now)
        (fun stored => (ending.attempt, stored.map (·.ended (ending.phase now)))) := by
  intro barrier
  cases ending <;> exact ⟨rfl, endRun_isBut barrier name _⟩

/-- Forgetting, with the barrier as it is where that is refused. -/
def forgetting (name : String) (barrier : Barrier α ε) : Except Refusal Bool × Barrier α ε :=
  match barrier.forget name with
  | .ok (existed, rest) => (.ok existed, rest)
  | .error refusal => (.error refusal, barrier)

theorem actsOn_forgetting (name : String)
    : ActsOn (α := α) (ε := ε) name (forgetting name) (Operation.forgotten name) := by
  intro barrier
  rw [forgetting, forget]
  cases found : barrier.operations.get? name with
  | none => exact ⟨rfl, .same found⟩
  | some operation =>
      rw [Operation.forgotten]
      cases phase : operation.phase with
      | running since => simpa only [phase] using ⟨rfl, .same found⟩
      | idle | finished _ _ => simpa only [phase] using ⟨rfl, .drop _ _⟩

theorem actsOn_evict (name : String) (age now : Seconds)
    : ActsOn (α := α) (ε := ε) name (fun barrier => barrier.evict name age now)
        (Operation.evicted age now) := by
  intro barrier
  simp only [evict]
  cases found : barrier.operations.get? name with
  | none => exact ⟨rfl, .same found⟩
  | some operation =>
      simp only [Operation.evicted, Operation.isDue]
      cases operation.phase with
      | running _ | idle => exact ⟨rfl, .same found⟩
      | finished verdict ended =>
          dsimp only
          cases now.minus ended with
          | error fault => exact ⟨rfl, .same found⟩
          | ok passed =>
              dsimp only [Except.map]
              cases age.exceeds passed with
              | true => exact ⟨rfl, .same found⟩
              | false => exact ⟨rfl, .drop _ _⟩

end Barrier

end DiscVolume
