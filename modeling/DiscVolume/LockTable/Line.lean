import DiscVolume.LockTable

/-! A lock table with the line of callers that wait for a lock. Each request is made when no
other is under way, so it takes all its steps at once.
-/

namespace DiscVolume

structure LockLine where
  table : LockTable := {}
  /-- Those who wait, the longest waiting first. -/
  waiting : List Ticket := []

namespace LockLine

/-- How a request to lock a key ended, with what the caller told. -/
inductive Locking where
  | locked (events : List LockEvent)
  | waiting (events : List LockEvent)
  deriving DecidableEq, Repr

/-- Unlocking, with what the caller told, and what the caller told that got the lock next. -/
structure Unlocking where
  events : List LockEvent
  granted : Option (List LockEvent)
  deriving DecidableEq, Repr

def isWaitedFor (line : LockLine) (key : String) : Bool := line.waiting.any (·.key == key)

def isHeld (line : LockLine) (key : String) : Bool :=
  match line.table.check key with
  | .ok _ => true
  | .error _ => false

/-- Locks a key, or joins the line for it. -/
def lock (line : LockLine) (key : String) : Locking × LockLine :=
  let (ticket, table) := line.table.register key
  match table.acquire? ticket with
  | some table => (.locked [.locking key, .locked key], { line with table })
  | none => (.waiting [.locking key], { table, waiting := line.waiting ++ [ticket] })

/-- Gives the lock of a key to the first in line for it, if it is free. -/
def grant (line : LockLine) (key : String) : Option (List LockEvent) × LockLine :=
  match line.waiting.find? (·.key = key) with
  | none => (none, line)
  | some ticket =>
      match line.table.acquire? ticket with
      | none => (none, line)
      | some table => (some [.locked key], { table, waiting := line.waiting.erase ticket })

/-- Unlocks a key, whoever holds it, and passes the lock on. -/
def unlock (line : LockLine) (key : String) : Except NotLocked (Unlocking × LockLine) := do
  let ticket ← line.table.check key
  let table := (line.table.release ticket).settle ticket
  let (granted, line) := { line with table }.grant key
  return (⟨[.unlocking key, .unlocked key], granted⟩, line)

def discard (line : LockLine) (key : String) : Bool × LockLine :=
  let (isRemoved, table) := line.table.discard key
  (isRemoved, { line with table })

end LockLine

end DiscVolume
