import DiscVolume.LockTable

/-! The callers of one lock table taken together. Locking and unlocking take several atomic steps
each, between which any steps of other callers may come. A caller may hold any number of keys; it
only unlocks a key that it holds.
-/

namespace DiscVolume.LockTable

/-- What a caller is in the middle of. -/
inductive Stage where
  | resting
  /-- It has registered with a lock and not acquired it yet. -/
  | waiting (ticket : Ticket)
  /-- It has found that the lock of a key is held, and is about to release it. -/
  | releasing (ticket : Ticket)
  /-- It has released a lock and not settled its registration yet. -/
  | settling (ticket : Ticket)
  deriving DecidableEq, Repr

/-- A caller, with its registrations for the locks that it holds. -/
structure Caller where
  held : List Ticket := []
  stage : Stage := .resting
  deriving DecidableEq, Repr

/-- The registration that a caller has besides those for the locks that it holds. -/
def Stage.pending : Stage → List Ticket
  | resting | releasing _ => []
  | waiting ticket | settling ticket => [ticket]

/-- The registrations of a caller that are not settled. -/
def Caller.tickets (caller : Caller) : List Ticket := caller.held ++ caller.stage.pending

/-- An atomic step. The callers are told apart by their places. -/
inductive Move where
  /-- A caller asks for a key and registers with its lock. -/
  | lock (place : Nat) (key : String)
  | acquire (place : Nat)
  /-- A caller that holds a key finds out which lock to release. -/
  | unlock (place : Nat) (key : String)
  | release (place : Nat)
  | settle (place : Nat)
  | discard (key : String)
  deriving DecidableEq, Repr

/-- A table and all its callers. -/
structure Crowd where
  table : LockTable := {}
  callers : List Caller

namespace Crowd

/-- The crowd after a caller has changed and the table with it. -/
def turn (crowd : Crowd) (place : Nat) (caller : Caller) (table : LockTable) : Crowd where
  table
  callers := crowd.callers.set place caller

/-- The crowd after a step. A step that a caller is not ready for is no step. -/
def after (crowd : Crowd) : Move → Crowd
  | .lock place key =>
      match crowd.callers[place]? with
      | some ⟨held, .resting⟩ =>
          let (ticket, table) := crowd.table.register key
          crowd.turn place ⟨held, .waiting ticket⟩ table
      | _ => crowd
  | .acquire place =>
      match crowd.callers[place]? with
      | some ⟨held, .waiting ticket⟩ =>
          match crowd.table.acquire? ticket with
          | some table => crowd.turn place ⟨ticket :: held, .resting⟩ table
          | none => crowd
      | _ => crowd
  | .unlock place key =>
      match crowd.callers[place]? with
      | some ⟨held, .resting⟩ =>
          if key ∈ held.map Ticket.key then
            match crowd.table.check key with
            | .ok ticket => crowd.turn place ⟨held, .releasing ticket⟩ crowd.table
            | .error _ => crowd
          else crowd
      | _ => crowd
  | .release place =>
      match crowd.callers[place]? with
      | some ⟨held, .releasing ticket⟩ =>
          crowd.turn place ⟨held.erase ticket, .settling ticket⟩ (crowd.table.release ticket)
      | _ => crowd
  | .settle place =>
      match crowd.callers[place]? with
      | some ⟨held, .settling ticket⟩ =>
          crowd.turn place ⟨held, .resting⟩ (crowd.table.settle ticket)
      | _ => crowd
  | .discard key => { crowd with table := (crowd.table.discard key).2 }

/-- What a number of callers of a new table come to by their steps, first step first. -/
def reached (count : Nat) (moves : List Move) : Crowd :=
  moves.foldl after { callers := List.replicate count {} }

/-- All registrations that are not settled. -/
def registrations (crowd : Crowd) : List Ticket := crowd.callers.flatMap Caller.tickets

/-- The registrations for the locks that are held, each as often as it is held. -/
def holdings (crowd : Crowd) : List Ticket := crowd.callers.flatMap Caller.held

end Crowd

end DiscVolume.LockTable
