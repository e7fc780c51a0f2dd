import DiscVolume.Barrier.Session

/-! Calls on a barrier as values, with the calls that run functions and other callers make in
the meantime, to any depth.
-/

namespace DiscVolume

inductive Call (α ε : Type) where
  /-- Contributes once. If the run falls to the caller, the run function makes some calls, and
  how it ends depends on the items it is given.
  -/
  | offer (contribution : Contribution α) (during : List (Call α ε))
      (ending : Ledger α → Ending α ε)
  /-- Contributes until the response is terminal, with pauses in which others make calls. -/
  | persist (contribution : Contribution α) (during : List (Call α ε))
      (ending : Ledger α → Ending α ε) (interval : Seconds) (pauses : List (List (Call α ε)))
      (patience : Nat)
  | setClock (now : Seconds)
  | forget (operation : String)
  | evict (age : Seconds)
  deriving Inhabited

/-- What a call answers. -/
inductive Answer (α ε : Type) where
  | attempted (attempt : Attempt α ε)
  | clockSet
  | forgotten (outcome : Except Refusal Bool)
  | evicted (outcome : Except ClockFault (List String))

/-- What became of a call. -/
structure Report (α ε : Type) where
  answer : Answer α ε
  /-- The items that the run function got, if it was called, and the calls that it made. -/
  run : Option (Ledger α × List (Report α ε)) := none
  /-- The calls that were made in each pause. -/
  pauses : List (List (Report α ε)) := []
  /-- The number of operations afterwards. -/
  count : Nat

/-- Completes a report with the number of operations. -/
def Answer.report (answer : Answer α ε) (run : Option (Ledger α × List (Report α ε)))
    (pauses : List (List (Report α ε))) : Calling α ε (Report α ε) := do
  return { answer, run, pauses, count := (← get).barrier.count }

mutual

def Call.perform : Call α ε → Calling α ε (Report α ε)
  | .offer contribution during ending => do
      let (attempt, run) ← Session.offer contribution fun items => do
        let reports ← Call.performAll during
        return (ending items, reports)
      (Answer.attempted attempt).report run []
  | .persist contribution during ending interval pauses patience => do
      let attempt := Session.offer contribution fun items => do
        let reports ← Call.performAll during
        return (ending items, reports)
      let (attempt, run, pauses) ←
        Session.persist attempt interval (Call.performEach pauses) patience
      (Answer.attempted attempt).report run pauses
  | .setClock now => do
      modify fun session => { session with now }
      Answer.clockSet.report none []
  | .forget operation => do
      (Answer.forgotten (← Session.forget operation)).report none []
  | .evict age => do
      (Answer.evicted (← Session.evict age)).report none []

/-- Performs calls one after the other. -/
def Call.performAll : List (Call α ε) → Calling α ε (List (Report α ε))
  | [] => pure []
  | call :: others => do
      let report ← call.perform
      let reports ← Call.performAll others
      return report :: reports

/-- The performance of each of some groups of calls. -/
def Call.performEach : List (List (Call α ε)) → List (Calling α ε (List (Report α ε)))
  | [] => []
  | calls :: others => Call.performAll calls :: Call.performEach others

end

end DiscVolume
