import DiscVolume.Barrier.Session
import DiscVolume.Proofs.Barrier.Locality

/-! Sessions at rest, where no lock is held or waited for. A request on such a session always has
an outcome, and leaves it at rest. What it does is said for the operation and the lock of one name
at a time: the lock of a name is made when it is first asked for, and is removed with the
operation by those requests that look after it.
-/

namespace DiscVolume

/-- A lock that was at rest, taken by one caller. -/
def KeyLock.taken (lock : KeyLock) : KeyLock := { lock with isHeld := true, users := 1 }

namespace LockTable

/-- No lock of a table is held or waited for. -/
def IsAtRest (table : LockTable) : Prop :=
  ∀ key lock, table.locks.get? key = some lock → lock.isHeld = false ∧ lock.users = 0

/-- A table in which a key has a lock, a new one if there was none. -/
def provide (table : LockTable) (key : String) : LockTable :=
  match table.locks.get? key with
  | some _ => table
  | none =>
      { table with
        locks := table.locks.put key { generation := table.made }
        made := table.made + 1 }

/-- A table with a lock put under a key. -/
def setLock (table : LockTable) (key : String) (lock : KeyLock) : LockTable :=
  { table with locks := table.locks.put key lock }

variable {table : LockTable} {key : String} {lock : KeyLock}

@[simp]
theorem setLock_setLock (table : LockTable) (key : String) (first second : KeyLock)
    : (table.setLock key first).setLock key second = table.setLock key second := by
  simp only [setLock, Ledger.put_put]

theorem lockOf?_setLock (table : LockTable) (key : String) (lock : KeyLock)
    : (table.setLock key lock).lockOf? ⟨key, lock.generation⟩ = some lock := by
  simp [lockOf?, setLock, Ledger.get?_put, Option.filter]

theorem update_setLock (table : LockTable) (key : String) (lock : KeyLock)
    (change : KeyLock → KeyLock)
    : (table.setLock key lock).update ⟨key, lock.generation⟩ change
      = table.setLock key (change lock) := by
  rw [update, lockOf?_setLock]
  exact table.setLock_setLock key lock (change lock)

/-- Registering is for the lock that is provided. -/
theorem register_eq (table : LockTable) (key : String)
    : ∃ lock, (table.provide key).locks.get? key = some lock
        ∧ table.register key
          = (⟨key, lock.generation⟩,
              (table.provide key).setLock key { lock with users := lock.users + 1 }) := by
  cases found : table.locks.get? key with
  | some lock => exact ⟨lock, by simp [provide, found], by simp [register, provide, found, setLock]⟩
  | none =>
      refine ⟨{ generation := table.made }, by simp [provide, found, Ledger.get?_put], ?_⟩
      simp [register, provide, found, setLock, Ledger.put_put]

/-- A key for which a lock is provided has one, and other keys are not affected. -/
theorem isSome_provide (table : LockTable) (key other : String)
    : ((table.provide key).locks.get? other).isSome
      = if other = key then true else (table.locks.get? other).isSome := by
  rw [provide]
  cases found : table.locks.get? key with
  | some lock =>
      dsimp only
      split
      · next same =>
          rw [same, found]
          rfl
      · rfl
  | none =>
      dsimp only
      rw [Ledger.get?_put]
      split <;> rfl

theorem IsAtRest.provide (rest : table.IsAtRest) (key : String) : (table.provide key).IsAtRest := by
  intro other lock
  rw [LockTable.provide]
  cases found : table.locks.get? key with
  | some _ => exact rest other lock
  | none =>
      dsimp only
      rw [Ledger.get?_put]
      split
      · intro same
        cases same
        exact ⟨rfl, rfl⟩
      · exact rest other lock

/-- A lock that is at rest is acquired at once by the one who registers with it. -/
theorem IsAtRest.acquire? (rest : table.IsAtRest) (key : String)
    : ∃ lock, (table.provide key).locks.get? key = some lock
        ∧ (table.register key).2.acquire? (table.register key).1
          = some ((table.provide key).setLock key lock.taken) := by
  obtain ⟨lock, found, registers⟩ := table.register_eq key
  obtain ⟨free, unused⟩ := rest.provide key key lock found
  refine ⟨lock, found, ?_⟩
  rw [registers, LockTable.acquire?, isFree]
  have known := (table.provide key).lockOf?_setLock key { lock with users := lock.users + 1 }
  have acquired := (table.provide key).update_setLock key { lock with users := lock.users + 1 }
    fun lock => { lock with isHeld := true }
  simp only at known acquired ⊢
  rw [known, acquired]
  simp [free, unused, KeyLock.taken]

/-- Giving up a lock that was at rest before leaves it at rest. -/
theorem IsAtRest.settle (rest : table.IsAtRest) (found : table.locks.get? key = some lock)
    : ∃ ticket, (table.setLock key lock.taken).check key = .ok ticket
        ∧ ((table.setLock key lock.taken).release ticket).settle ticket = table := by
  obtain ⟨free, unused⟩ := rest key lock found
  refine ⟨⟨key, lock.generation⟩, ?_, ?_⟩
  · simp [check, setLock, Ledger.get?_put, KeyLock.taken]
  · have released := table.update_setLock key lock.taken fun lock => { lock with isHeld := false }
    have settled := table.update_setLock key { lock with isHeld := false, users := 1 }
      fun lock => { lock with users := lock.users - 1 }
    simp only [KeyLock.taken] at released settled
    have same : ({ lock with isHeld := false, users := 1 - 1 } : KeyLock) = lock := by
      cases lock
      simp_all
    rw [KeyLock.taken, release, released, LockTable.settle, settled, same, setLock,
      Ledger.put_of_get? found]

/-- A lock that is at rest is removed when it is discarded. -/
theorem IsAtRest.discard_eq (rest : table.IsAtRest) (key : String)
    : (table.discard key).2 = { table with locks := table.locks.drop key } := by
  rw [discard]
  cases found : table.locks.get? key with
  | none => rw [Ledger.drop_of_get?_eq_none found]
  | some lock =>
      obtain ⟨-, unused⟩ := rest key lock found
      dsimp only
      rw [if_pos unused]

theorem IsAtRest.discard (rest : table.IsAtRest) (key : String)
    : (table.discard key).2.IsAtRest := by
  intro other lock
  rw [rest.discard_eq, Ledger.get?_drop]
  split
  · intro absent
    cases absent
  · exact rest other lock

end LockTable

namespace Operation

/-- Whether there is an operation that is evicted. -/
def isGone (age now : Seconds) (stored : Option (Operation α ε)) : Bool :=
  stored.isSome && (evicted age now stored).2.isNone

/-- If it can be told whether an operation is due, the answer is whether it is gone. -/
theorem evicted_fst {age now : Seconds} {stored : Option (Operation α ε)}
    (told : ∀ operation ∈ stored, ∃ due, operation.isDue age now = .ok due)
    : (evicted age now stored).1 = .ok (isGone age now stored) := by
  cases stored with
  | none => rfl
  | some operation =>
      obtain ⟨due, known⟩ := told operation rfl
      rw [isGone, evicted, known]
      cases due <;> rfl

end Operation

namespace Session

/-- The operation that goes by a name in a session. -/
def stored? (session : Session α ε) (name : String) : Option (Operation α ε) :=
  session.barrier.operations.get? name

/-- Whether there is a lock for a key. -/
def hasLock (session : Session α ε) (key : String) : Bool :=
  (session.locks.locks.get? key).isSome

/-- A session at rest, as another one but for the operation and the lock of a name. -/
structure IsBut (next session : Session α ε) (name : String) (stored : Option (Operation α ε))
    (isLocked : Bool)
    : Prop where
  rest : next.locks.IsAtRest
  now : next.now = session.now
  stored : ∀ other, next.stored? other = if other = name then stored else session.stored? other
  locked : ∀ other, next.hasLock other = if other = name then isLocked else session.hasLock other

/-- A request goes on where its first part stops. -/
theorem bind_of_eq_some {request : Calling α ε β} {others : β → Calling α ε γ} {found : β}
    {session next : Session α ε} (performed : request session = some (found, next))
    : (request >>= others) session = others found next := by
  change (request session).bind (fun result => others result.1 result.2) = _
  rw [performed]
  rfl

variable {session : Session α ε}

/-- On a session at rest a lock is taken at once. -/
theorem lock_eq (rest : session.locks.IsAtRest) (key : String)
    : ∃ lock, (session.locks.provide key).locks.get? key = some lock
        ∧ Session.lock key session
          = some ((),
              { session with
                locks := (session.locks.provide key).setLock key lock.taken
                journal := session.journal ++ [.locking key, .locked key] }) := by
  obtain ⟨lock, found, acquired⟩ := rest.acquire? key
  refine ⟨lock, found, ?_⟩
  simp only [Session.lock, acquired]
  rfl

/-- The only lock that is taken is given up at once. -/
theorem unlock_eq {table : LockTable} (rest : table.IsAtRest) {key : String} {lock : KeyLock}
    (found : table.locks.get? key = some lock)
    (taken : session.locks = table.setLock key lock.taken)
    : Session.unlock key session
      = some ((),
          { session with
            locks := table
            journal := session.journal ++ [.unlocking key, .unlocked key] }) := by
  obtain ⟨ticket, checked, settled⟩ := rest.settle found
  simp only [Session.unlock, taken, checked, Except.toOption, Option.bind_eq_bind,
    Option.bind_some, settled]
  rfl

/-- On a session at rest a step is taken at once, and the lock for it is there afterwards. -/
theorem holding_eq (rest : session.locks.IsAtRest) (key : String)
    (step : Seconds → Barrier α ε → β × Barrier α ε)
    : holding key step session
      = some ((step session.now session.barrier).1,
          { session with
            barrier := (step session.now session.barrier).2
            locks := session.locks.provide key
            journal := session.journal
              ++ [.locking key, .locked key] ++ [.unlocking key, .unlocked key] }) := by
  obtain ⟨lock, found, locks⟩ := lock_eq rest key
  rw [holding, bind_of_eq_some locks]
  change (unlock key >>= fun _ => pure (step session.now session.barrier).1) _ = _
  rw [bind_of_eq_some (unlock_eq (rest.provide key) found rfl)]
  rfl

variable {next : Session α ε} {name : String}

/-- A request that is one step with a lock held changes what is stored as the step does. -/
theorem holding_isBut (rest : session.locks.IsAtRest)
    (step : Seconds → Barrier α ε → β × Barrier α ε)
    {act : Option (Operation α ε) → β × Option (Operation α ε)}
    (acts : Barrier.ActsOn name (step session.now) act)
    : ∃ next, holding name step session = some ((act (session.stored? name)).1, next)
        ∧ next.IsBut session name (act (session.stored? name)).2 true := by
  obtain ⟨answer, effect⟩ := acts session.barrier
  refine ⟨_, (session.holding_eq rest name step).trans (by rw [answer]; rfl), ?_⟩
  exact {
    rest := rest.provide name
    now := rfl
    stored := effect
    locked := session.locks.isSome_provide name
  }

/-- A lock that is discarded is gone. -/
theorem IsBut.discard {stored : Option (Operation α ε)} {isLocked : Bool}
    (but : next.IsBut session name stored isLocked)
    : ∃ final, discard name next = some ((), final) ∧ final.IsBut session name stored false := by
  refine ⟨_, rfl, ?_⟩
  refine {
    rest := but.rest.discard name
    now := but.now
    stored := but.stored
    locked := fun other => ?_
  }
  have before := but.locked other
  rw [hasLock] at before ⊢
  dsimp only
  rw [but.rest.discard_eq, Ledger.get?_drop]
  split
  · rfl
  · next differs => rw [before, if_neg differs]

/-- Whether it is forgotten or was not there, a name that is not stored has no lock. -/
theorem forget_isBut (rest : session.locks.IsAtRest) (name : String)
    : ∃ next,
        forget name session = some ((Operation.forgotten name (session.stored? name)).1, next)
        ∧ next.IsBut session name (Operation.forgotten name (session.stored? name)).2
            (Operation.forgotten name (session.stored? name)).2.isSome := by
  obtain ⟨held, holds, but⟩ :=
    holding_isBut rest (fun _ => Barrier.forgetting name) (Barrier.actsOn_forgetting name)
  have goesOn : forget name session = _ := bind_of_eq_some holds
  cases found : session.stored? name with
  | none =>
      rw [found] at but goesOn
      obtain ⟨final, discards, gone⟩ := but.discard
      exact ⟨final, goesOn.trans (bind_of_eq_some discards), gone⟩
  | some operation =>
      rw [found, Operation.forgotten] at but goesOn
      rw [Operation.forgotten]
      split
      · next running =>
          rw [if_pos running] at but goesOn
          exact ⟨held, goesOn, but⟩
      · next resting =>
          rw [if_neg resting] at but goesOn
          obtain ⟨final, discards, gone⟩ := but.discard
          exact ⟨final, goesOn.trans (bind_of_eq_some discards), gone⟩

/-- The part of an eviction that is about one operation. -/
def visit (age : Seconds) (name : String) : Calling α ε (Except ClockFault Bool) := do
  match ← holding name fun now barrier => barrier.evict name age now with
  | .error fault => return .error fault
  | .ok false => return .ok false
  | .ok true => do
      discard name
      return .ok true

/-- An eviction is a visit to each of the operations. -/
theorem evictAmong_cons (age : Seconds) (name : String) (others : List String)
    : (evictAmong age (name :: others) : Calling α ε _) = do
        match ← visit age name with
        | .error fault => return .error fault
        | .ok false => evictAmong age others
        | .ok true => do
            let dropped ← evictAmong age others
            return dropped.map (name :: ·) := by
  rw [evictAmong, visit, bind_assoc]
  refine bind_congr fun outcome => ?_
  cases outcome with
  | error fault => rfl
  | ok isDue => cases isDue <;> rfl

/-- A visit removes the operation with its lock, or leaves a lock. -/
theorem visit_isBut (rest : session.locks.IsAtRest) (age : Seconds) (name : String)
    : ∃ next,
        visit age name session
          = some ((Operation.evicted age session.now (session.stored? name)).1, next)
        ∧ next.IsBut session name (Operation.evicted age session.now (session.stored? name)).2
            (!Operation.isGone age session.now (session.stored? name)) := by
  obtain ⟨held, holds, but⟩ :=
    holding_isBut rest (fun now barrier => barrier.evict name age now)
      (Barrier.actsOn_evict name age session.now)
  have goesOn : visit age name session = _ := bind_of_eq_some holds
  cases found : session.stored? name with
  | none =>
      rw [found] at but goesOn
      exact ⟨held, goesOn, but⟩
  | some operation =>
      rw [found] at but goesOn
      rw [Operation.isGone]
      cases due : operation.isDue age session.now with
      | error fault =>
          simp only [Operation.evicted, due] at but goesOn ⊢
          exact ⟨held, goesOn, but⟩
      | ok isDue =>
          cases isDue with
          | false =>
              simp only [Operation.evicted, due] at but goesOn ⊢
              exact ⟨held, goesOn, but⟩
          | true =>
              simp only [Operation.evicted, due] at but goesOn ⊢
              obtain ⟨final, discards, gone⟩ := but.discard
              exact ⟨final, goesOn.trans (bind_of_eq_some discards), gone⟩

/-- A session at rest after visits to the operations of some names. -/
structure IsSwept (next session : Session α ε) (age : Seconds) (names : List String) : Prop where
  rest : next.locks.IsAtRest
  now : next.now = session.now
  stored : ∀ other, next.stored? other
    = if other ∈ names then (Operation.evicted age session.now (session.stored? other)).2
      else session.stored? other
  locked : ∀ other, next.hasLock other
    = if other ∈ names then !Operation.isGone age session.now (session.stored? other)
      else session.hasLock other

/-- A visit to one more name, before the others. -/
theorem IsSwept.cons {final : Session α ε} {age : Seconds} {names : List String}
    (first : next.IsBut session name (Operation.evicted age session.now (session.stored? name)).2
      (!Operation.isGone age session.now (session.stored? name)))
    (others : final.IsSwept next age names) (new : name ∉ names)
    : final.IsSwept session age (name :: names) where
  rest := others.rest
  now := others.now.trans first.now
  stored other := by
    rw [others.stored, first.now, first.stored]
    by_cases same : other = name
    · subst same
      simp [new]
    · simp [same]
  locked other := by
    rw [others.locked, first.now, first.stored, first.locked]
    by_cases same : other = name
    · subst same
      simp [new]
    · simp [same]

/-- An eviction that can tell of every operation whether it is due goes through all of them. -/
theorem evictAmong_isSwept (rest : session.locks.IsAtRest) {age : Seconds} {names : List String}
    (distinct : names.Nodup)
    (told : ∀ name ∈ names, ∀ operation ∈ session.stored? name,
      ∃ due, operation.isDue age session.now = .ok due)
    : ∃ next,
        evictAmong age names session
          = some (.ok (names.filter fun name =>
              Operation.isGone age session.now (session.stored? name)), next)
        ∧ next.IsSwept session age names := by
  induction names generalizing session with
  | nil => exact ⟨session, rfl, rest, rfl, fun _ => rfl, fun _ => rfl⟩
  | cons name names ih =>
      obtain ⟨new, distinct⟩ := List.nodup_cons.mp distinct
      obtain ⟨visited, visits, but⟩ := visit_isBut rest age name
      -- The later names differ from this one, so its visit does not change what they meet.
      have untouched (other : String) (member : other ∈ names)
          : visited.stored? other = session.stored? other := by
        have differs : other ≠ name := by
          rintro rfl
          exact new member
        rw [but.stored, if_neg differs]
      obtain ⟨final, goesOn, swept⟩ := ih but.rest distinct fun other member operation found => by
        rw [but.now]
        rw [untouched other member] at found
        exact told other (List.mem_cons_of_mem name member) operation found
      have same : names.filter (fun other =>
            Operation.isGone age visited.now (visited.stored? other))
          = names.filter fun other => Operation.isGone age session.now (session.stored? other) := by
        apply List.filter_congr
        intro other member
        rw [but.now, untouched other member]
      rw [same] at goesOn
      refine ⟨final, ?_, .cons but swept new⟩
      have answer := Operation.evicted_fst (told name List.mem_cons_self)
      rw [answer] at visits
      rw [evictAmong_cons, bind_of_eq_some visits, List.filter_cons]
      cases Operation.isGone age session.now (session.stored? name) with
      | false => exact goesOn
      | true => exact bind_of_eq_some goesOn

end Session

end DiscVolume
