import DiscVolume.Ledger
import DiscVolume.Text.Quoted

/-! A table of locks, one for each key, for callers that agree on the keys on which they take
turns. A lock is made when its key is first asked for and stays until it is discarded, which
only succeeds when no caller holds the lock or waits for it.

Locking and unlocking are not single steps. A caller registers with the lock of a key and
acquires the lock later, when it is free. Unlocking checks that the lock is held, releases it,
and then settles the registration. Steps of other callers may come between any two of these.
-/

namespace DiscVolume

/-- The lock of a key. -/
structure KeyLock where
  /-- Tells the lock from others that the same key has had. -/
  generation : Nat
  isHeld : Bool := false
  /-- Registrations with the lock that are not settled. -/
  users : Nat := 0
  deriving DecidableEq, Repr

/-- A registration with one of the locks that a key has had. -/
structure Ticket where
  key : String
  generation : Nat
  deriving DecidableEq, Repr

/-- The lock of a key is not held by anybody. -/
structure NotLocked where
  key : String
  deriving DecidableEq, Repr

def NotLocked.message (refusal : NotLocked) : String :=
  "Key " ++ Text.quoted refusal.key ++ " is not locked"

/-- What a caller tells about its turns. -/
inductive LockEvent where
  | locking (key : String)
  | locked (key : String)
  | unlocking (key : String)
  | unlocked (key : String)
  deriving DecidableEq, Repr

def LockEvent.message : LockEvent → String
  | .locking key => "Locking " ++ Text.quoted key
  | .locked key => "Locked " ++ Text.quoted key
  | .unlocking key => "Unlocking " ++ Text.quoted key
  | .unlocked key => "Unlocked " ++ Text.quoted key

structure LockTable where
  locks : Ledger KeyLock := .empty
  /-- Locks made so far. -/
  made : Nat := 0
  /-- Whether what callers tell is passed over. -/
  isSilent : Bool := false

namespace LockTable

def size (table : LockTable) : Nat := table.locks.size

/-- The messages about events, none if the table is silent. -/
def messages (table : LockTable) (events : List LockEvent) : List String :=
  if table.isSilent then [] else events.map LockEvent.message

/-- The lock of a ticket, if the table still has it. -/
def lockOf? (table : LockTable) (ticket : Ticket) : Option KeyLock :=
  (table.locks.get? ticket.key).filter (fun lock => lock.generation = ticket.generation)

/-- Changes the lock of a ticket, if the table still has it. -/
def update (table : LockTable) (ticket : Ticket) (change : KeyLock → KeyLock) : LockTable :=
  match table.lockOf? ticket with
  | some lock => { table with locks := table.locks.put ticket.key (change lock) }
  | none => table

/-- Registers with the lock of a key, which is made if there is none. -/
def register (table : LockTable) (key : String) : Ticket × LockTable :=
  match table.locks.get? key with
  | some lock =>
      (⟨key, lock.generation⟩,
        { table with locks := table.locks.put key { lock with users := lock.users + 1 } })
  | none =>
      (⟨key, table.made⟩,
        { table with
          locks := table.locks.put key { generation := table.made, users := 1 }
          made := table.made + 1 })

/-- Whether the lock of a ticket can be acquired. Nobody can hinder a caller from acquiring a
lock that is no longer in the table.
-/
def isFree (table : LockTable) (ticket : Ticket) : Bool :=
  match table.lockOf? ticket with
  | some lock => !lock.isHeld
  | none => true

/-- Acquires the lock of a ticket if it is free. -/
def acquire? (table : LockTable) (ticket : Ticket) : Option LockTable :=
  if table.isFree ticket then
    some (table.update ticket fun lock => { lock with isHeld := true })
  else none

/-- The ticket for the lock of a key, which must be held. -/
def check (table : LockTable) (key : String) : Except NotLocked Ticket :=
  match table.locks.get? key with
  | some lock => if lock.isHeld then .ok ⟨key, lock.generation⟩ else .error ⟨key⟩
  | none => .error ⟨key⟩

def release (table : LockTable) (ticket : Ticket) : LockTable :=
  table.update ticket fun lock => { lock with isHeld := false }

/-- Settles one registration with the lock of a ticket. -/
def settle (table : LockTable) (ticket : Ticket) : LockTable :=
  table.update ticket fun lock => { lock with users := lock.users - 1 }

/-- Removes the lock of a key if there is one without users, and tells whether it did. -/
def discard (table : LockTable) (key : String) : Bool × LockTable :=
  match table.locks.get? key with
  | some lock =>
      if lock.users = 0 then (true, { table with locks := table.locks.drop key })
      else (false, table)
  | none => (false, table)

end LockTable

end DiscVolume
