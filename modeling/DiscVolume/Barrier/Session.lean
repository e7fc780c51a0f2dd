import DiscVolume.Barrier
import DiscVolume.LockTable

/-! A barrier whose operations have a lock each. All that is read and changed of an operation is
read and changed while its lock is held; a run function is called while it is not, so that
other callers, and the run function itself, can make requests in the meantime.
-/

namespace DiscVolume

/-- How a run function ends. -/
inductive Ending (α ε : Type) where
  | returned (value : α)
  | raised (error : ε)
  | interrupted

/-- What a caller has got when it stops asking. -/
inductive Attempt (α ε : Type) where
  | responded (response : Response α ε)
  | interrupted
  /-- The patience of the caller is used up. -/
  | abandoned
  /-- The clock cannot tell what the caller needs to know. -/
  | untimed (fault : ClockFault)

/-- Whether asking again makes no difference to the caller. -/
def Attempt.isSettled : Attempt α ε → Bool
  | .responded response => response.isTerminal
  | .interrupted | .abandoned | .untimed _ => true

structure Session (α ε : Type) where
  barrier : Barrier α ε := {}
  locks : LockTable := { isSilent := true }
  /-- What has happened to the locks so far. -/
  journal : List LockEvent := []
  now : Seconds := 0

/-- A request made of a barrier. It has no outcome if it asks for a lock that is held, for then
the caller waits for ever, or gives up a lock that is not held.
-/
abbrev Calling (α ε : Type) := StateT (Session α ε) Option

namespace Session

def lock (key : String) : Calling α ε Unit := fun session => do
  let (ticket, locks) := session.locks.register key
  let locks ← locks.acquire? ticket
  return ((), { session with locks, journal := session.journal ++ [.locking key, .locked key] })

def unlock (key : String) : Calling α ε Unit := fun session => do
  let ticket ← (session.locks.check key).toOption
  return ((), { session with
    locks := (session.locks.release ticket).settle ticket
    journal := session.journal ++ [.unlocking key, .unlocked key] })

/-- Removes the lock of a key that is not needed any more. -/
def discard (key : String) : Calling α ε Unit :=
  modify fun session => { session with locks := (session.locks.discard key).2 }

/-- A step on the barrier that depends on the time and is taken with a lock held. -/
def holding (key : String) (step : Seconds → Barrier α ε → β × Barrier α ε)
    : Calling α ε β := do
  lock key
  let session ← get
  let (outcome, barrier) := step session.now session.barrier
  set { session with barrier }
  unlock key
  return outcome

/-- Lets time pass, if the clock can tell the time after it. -/
def elapse (interval : Seconds) : Calling α ε (Except ClockFault Unit) := do
  let session ← get
  match session.now.plus interval with
  | .error fault => return .error fault
  | .ok now => do
      set { session with now }
      return .ok ()

/-- How the end of a run changes the barrier, and what the caller gets. -/
def conclude (name : String) (ending : Ending α ε) (now : Seconds) (barrier : Barrier α ε)
    : Attempt α ε × Barrier α ε :=
  match ending with
  | .returned value => (.responded (.done (.ok value)), barrier.complete name (.ok value) now)
  | .raised error => (.responded (.done (.error error)), barrier.complete name (.error error) now)
  | .interrupted => (.interrupted, barrier.interrupt name)

/-- Contributes to an operation. If the run falls to the caller, the work is done on the items;
what it yields besides its ending is handed on.
-/
def offer (contribution : Contribution α) (work : Ledger α → Calling α ε (Ending α ε × β))
    : Calling α ε (Attempt α ε × Option (Ledger α × β)) := do
  let name := contribution.operation
  let turn ← holding name fun now barrier => barrier.enter contribution now
  match turn with
  | .answered response => return (.responded response, none)
  | .untimed fault => return (.untimed fault, none)
  | .mustRun items => do
      -- No lock is held here, so the work can make requests of the same operation.
      let (ending, extra) ← work items
      let attempt ← holding name (conclude name ending)
      return (attempt, some (items, extra))

/-- (persist attempt interval pauses patience) makes attempts until one is settled, at most one
more than its patience. In between an interval passes, and others make requests.
-/
def persist (attempt : Calling α ε (Attempt α ε × Option β)) (interval : Seconds)
    : List (Calling α ε (List γ)) → (patience : Nat)
      → Calling α ε (Attempt α ε × Option β × List (List γ))
  | pauses, patience => do
      let (result, work) ← attempt
      if result.isSettled then return (result, work, [])
      else
        match patience with
        | 0 => return (.abandoned, work, [])
        | patience + 1 => do
            match ← elapse interval with
            | .error fault => return (.untimed fault, work, [])
            | .ok () => do
                let pause ← pauses.headD (pure [])
                let (result, work, others) ← persist attempt interval pauses.tail patience
                return (result, work, pause :: others)

/-- Drops an operation with its lock, and tells whether there was one. -/
def forget (name : String) : Calling α ε (Except Refusal Bool) := do
  let outcome ← holding name fun _ barrier =>
    match barrier.forget name with
    | .ok (existed, rest) => (Except.ok existed, rest)
    | .error refusal => (.error refusal, barrier)
  match outcome with
  | .ok _ => do
      discard name
      return outcome
  | .error _ => return outcome

/-- Drops those operations that finished an age ago or more, with their locks. If the age of one
cannot be told, those before it stay dropped.
-/
def evictAmong (age : Seconds)
    : (names : List String) → Calling α ε (Except ClockFault (List String))
  | [] => pure (.ok [])
  | name :: others => do
      match ← holding name fun now barrier => barrier.evict name age now with
      | .error fault => return .error fault
      | .ok false => evictAmong age others
      | .ok true => do
          discard name
          let dropped ← evictAmong age others
          return dropped.map (name :: ·)

/-- Drops all operations that finished an age ago or more; the names in the order in which the
operations were started.
-/
def evict (age : Seconds) : Calling α ε (Except ClockFault (List String)) := do
  evictAmong age (← get).barrier.operations.keys

end Session

end DiscVolume
