import DiscVolume.Ledger
import DiscVolume.Seconds

/-! Barriers: operations that wait for one item from each of a known number of callers and then
run once over all the items. The caller whose item completes the collection is told to run the
operation; all later callers are told how that run ended. A run that is interrupted counts as
not begun. Nothing watches the clock: timeouts are noticed when a caller comes.
-/

namespace DiscVolume

/-- What a caller brings to an operation. -/
structure Contribution (α : Type) where
  operation : String
  item : String
  /-- How many items the operation is to wait for, as this caller has it. -/
  howMany : Option Int
  value : α
  client : α
  /-- How long to collect at most; 0 stands for no limit, as for the run. -/
  collectionTimeout : Seconds := 0
  runTimeout : Seconds := 0

/-- Why a request is turned down. -/
inductive Refusal where
  | countNotPositive (operation : String)
  | countDiffers (given : Int) (item : String) (expected : Nat) (operation : String)
  | timeoutDiffers (given : Seconds) (item : String) (expected : Seconds) (operation : String)
  | stillRunning (operation : String)
  deriving DecidableEq

def Refusal.message : Refusal → String
  | .countNotPositive operation => "how_many must be a positive number for " ++ operation
  | .countDiffers given item expected operation =>
      "how_many " ++ toString given ++ " for item " ++ item ++ " does not match "
        ++ toString expected ++ " for " ++ operation
  | .timeoutDiffers given item expected operation =>
      "collection_timeout " ++ given.text ++ " for item " ++ item ++ " does not match "
        ++ expected.text ++ " for " ++ operation
  | .stillRunning operation => "Cannot forget " ++ operation ++ " while it is running"

/-- How far an operation has come: it waits for items or for a run, runs since some time, or has
finished at some time with a value or an error.
-/
inductive Phase (α ε : Type) where
  | idle
  | running (since : Seconds)
  | finished (verdict : Except ε α) (ended : Seconds)

structure Operation (α ε : Type) where
  items : Ledger α
  howMany : Nat
  collectionTimeout : Seconds
  collectingSince : Seconds
  phase : Phase α ε

/-- What a caller is told. -/
inductive Response (α ε : Type) where
  | failed (refusal : Refusal)
  | waiting
  | running
  | runTimeout
  | collectionTimeout
  | done (verdict : Except ε α)

namespace Response

/-- The word for a response. -/
def label : Response α ε → String
  | failed _ => "fail"
  | waiting => "waiting"
  | running => "running"
  | runTimeout => "run-timeout"
  | collectionTimeout => "collection-timeout"
  | done _ => "done"

/-- Whether a caller need not come again. -/
def isTerminal : Response α ε → Bool
  | waiting | running => false
  | failed _ | runTimeout | collectionTimeout | done _ => true

end Response

/-- What a contribution leads to: an answer, a run over all the items, or nothing if the time that
has passed cannot be told.
-/
inductive Turn (α ε : Type) where
  | answered (response : Response α ε)
  | mustRun (items : Ledger α)
  | untimed (fault : ClockFault)

/-- Whether the time since a start is over a limit, if there is a limit. -/
def isOverdue (now start limit : Seconds) : Except ClockFault Bool :=
  if limit.isSet then do
    let passed ← now.minus start
    return passed.exceeds limit
  else .ok false

namespace Contribution

/-- The operation that a contribution goes to, a new one if none is stored. The numbers that the
caller gives must fit; a collection timeout of 0 fits any.
-/
def admitTo (contribution : Contribution α) (now : Seconds) (stored : Option (Operation α ε))
    : Except Refusal (Operation α ε) := do
  let given := contribution.howMany.getD 0
  if given ≤ 0 then throw (.countNotPositive contribution.operation)
  else
    match stored with
    | none =>
        return {
          items := .empty
          howMany := given.toNat
          collectionTimeout := contribution.collectionTimeout
          collectingSince := now
          phase := .idle
        }
    | some operation =>
        if given ≠ operation.howMany then
          throw (.countDiffers given contribution.item operation.howMany contribution.operation)
        else if contribution.collectionTimeout.isSet
            && !contribution.collectionTimeout.same operation.collectionTimeout then
          throw (.timeoutDiffers contribution.collectionTimeout contribution.item
            operation.collectionTimeout contribution.operation)
        else return operation

end Contribution

namespace Operation

def isComplete (operation : Operation α ε) : Bool := operation.howMany ≤ operation.items.size

/-- Records an item. Only the first value of an item counts. -/
def collect (operation : Operation α ε) (item : String) (value : α) : Operation α ε :=
  match operation.items.get? item with
  | some _ => operation
  | none => { operation with items := operation.items.put item value }

/-- What a caller finds when all items are there. -/
def proceed (operation : Operation α ε) (now runTimeout : Seconds)
    : Turn α ε × Operation α ε :=
  match operation.phase with
  | .finished verdict _ => (.answered (.done verdict), operation)
  | .running since =>
      match isOverdue now since runTimeout with
      | .error fault => (.untimed fault, operation)
      | .ok true => (.answered .runTimeout, operation)
      | .ok false => (.answered .running, operation)
  | .idle => (.mustRun operation.items, { operation with phase := .running now })

/-- Takes a contribution that was admitted. -/
def accept (operation : Operation α ε) (contribution : Contribution α) (now : Seconds)
    : Turn α ε × Operation α ε :=
  if operation.isComplete then operation.proceed now contribution.runTimeout
  else
    -- The limit is that of the caller, who may have none although the operation has one.
    match isOverdue now operation.collectingSince contribution.collectionTimeout with
    | .error fault => (.untimed fault, operation)
    | .ok true => (.answered .collectionTimeout, operation)
    | .ok false =>
        let operation := operation.collect contribution.item contribution.value
        if operation.isComplete then operation.proceed now contribution.runTimeout
        else (.answered .waiting, operation)

end Operation

/-- The operations that are known, by name, in the order in which they were started. -/
structure Barrier (α ε : Type) where
  operations : Ledger (Operation α ε) := .empty

namespace Barrier

def count (barrier : Barrier α ε) : Nat := barrier.operations.size

/-- Takes a contribution. -/
def enter (barrier : Barrier α ε) (contribution : Contribution α) (now : Seconds)
    : Turn α ε × Barrier α ε :=
  match contribution.admitTo now (barrier.operations.get? contribution.operation) with
  | .error refusal => (.answered (.failed refusal), barrier)
  | .ok operation =>
      let (turn, operation) := operation.accept contribution now
      (turn, { operations := barrier.operations.put contribution.operation operation })

/-- Changes the phase of an operation that is running. -/
def endRun (barrier : Barrier α ε) (name : String) (phase : Phase α ε) : Barrier α ε :=
  match barrier.operations.get? name with
  | none => barrier
  | some operation =>
      match operation.phase with
      | .running _ => { operations := barrier.operations.put name { operation with phase } }
      | .idle | .finished _ _ => barrier

/-- Ends the run of an operation with a value or an error, which all later callers are told. -/
def complete (barrier : Barrier α ε) (name : String) (verdict : Except ε α) (now : Seconds)
    : Barrier α ε :=
  barrier.endRun name (.finished verdict now)

/-- Ends the run of an operation as if it had not begun. -/
def interrupt (barrier : Barrier α ε) (name : String) : Barrier α ε := barrier.endRun name .idle

/-- Drops an operation that is not running, and tells whether there was one. -/
def forget (barrier : Barrier α ε) (name : String) : Except Refusal (Bool × Barrier α ε) :=
  match barrier.operations.get? name with
  | none => .ok (false, barrier)
  | some operation =>
      match operation.phase with
      | .running _ => .error (.stillRunning name)
      | .idle | .finished _ _ => .ok (true, { operations := barrier.operations.drop name })

/-- Drops an operation if it finished an age ago or more, and tells whether it did. -/
def evict (barrier : Barrier α ε) (name : String) (age now : Seconds)
    : Except ClockFault Bool × Barrier α ε :=
  match barrier.operations.get? name with
  | none => (.ok false, barrier)
  | some operation =>
      match operation.phase with
      | .finished _ ended =>
          match now.minus ended with
          | .error fault => (.error fault, barrier)
          | .ok passed =>
              if age.exceeds passed then (.ok false, barrier)
              else (.ok true, { operations := barrier.operations.drop name })
      | .idle | .running _ => (.ok false, barrier)

end Barrier

end DiscVolume
