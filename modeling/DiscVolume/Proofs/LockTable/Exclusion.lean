import DiscVolume.Proofs.LockTable.Interleaving
import Mathlib.Data.List.Count
import Mathlib.Data.List.Nodup

/-! Callers of a lock table take turns. The invariant ties the lock of every key to the callers:
its users are their registrations that are not settled, it is held by one of them or by nobody,
and no lock with a registration leaves the table, so that keys cannot get a second lock meanwhile.
-/

namespace DiscVolume.LockTable

section

variable {table : LockTable} {ticket : Ticket} {lock : KeyLock}

theorem lockOf?_eq_some
    : table.lockOf? ticket = some lock
      ↔ table.locks.get? ticket.key = some lock ∧ lock.generation = ticket.generation := by
  rw [lockOf?, Option.filter_eq_some_iff, decide_eq_true_eq]

/-- Writing the lock of a ticket, where the key has no lock of another generation, changes what
is found by this ticket alone.
-/
theorem lockOf?_put {next : LockTable} (named : lock.generation = ticket.generation)
    (alone : ∀ former, table.locks.get? ticket.key = some former
      → former.generation = ticket.generation)
    (put : next.locks = table.locks.put ticket.key lock) (other : Ticket)
    : next.lockOf? other = if other = ticket then some lock else table.lockOf? other := by
  rw [lockOf?, lockOf?, put, Ledger.get?_put]
  by_cases same : other = ticket
  · subst same
    simp [named]
  · rw [if_neg same]
    by_cases sameKey : other.key = ticket.key
    · -- Another ticket for the same key finds nothing, neither before nor after.
      have differs : ticket.generation ≠ other.generation := by
        intro sameGeneration
        exact same (by cases other; cases ticket; simp_all)
      rw [if_pos sameKey, sameKey]
      cases found : table.locks.get? ticket.key with
      | none => simp [Option.filter, named, differs]
      | some former => simp [Option.filter, named, alone former found, differs]
    · rw [if_neg sameKey]

theorem lockOf?_update {change : KeyLock → KeyLock} (found : table.lockOf? ticket = some lock)
    (kept : (change lock).generation = lock.generation) (other : Ticket)
    : (table.update ticket change).lockOf? other
      = if other = ticket then some (change lock) else table.lockOf? other := by
  obtain ⟨stored, named⟩ := lockOf?_eq_some.mp found
  rw [update, found]
  refine lockOf?_put (kept.trans named) (fun former known => ?_) rfl other
  cases stored.symm.trans known
  exact named

/-- Registering adds one user to the lock of a key, which is a new one if there was none. -/
theorem lockOf?_register (table : LockTable) (key : String)
    : ∃ lock,
        ((table.lockOf? (table.register key).1 = some lock)
          ∨ table.lockOf? (table.register key).1 = none ∧ lock.users = 0 ∧ lock.isHeld = false)
        ∧ ∀ other, (table.register key).2.lockOf? other
          = if other = (table.register key).1 then some { lock with users := lock.users + 1 }
            else table.lockOf? other := by
  cases found : table.locks.get? key with
  | some lock =>
      have joined : table.register key = (⟨key, lock.generation⟩, (table.register key).2) := by
        simp [register, found]
      refine ⟨lock, .inl ?_, fun other => ?_⟩
      · rw [joined]
        exact lockOf?_eq_some.mpr ⟨found, rfl⟩
      · refine lockOf?_put ?_ ?_ ?_ other
        · rw [joined]
        · rw [joined]
          intro former known
          cases found.symm.trans known
          rfl
        · simp [register, found]
  | none =>
      have made : table.register key = (⟨key, table.made⟩, (table.register key).2) := by
        simp [register, found]
      refine ⟨{ generation := table.made }, .inr ⟨?_, rfl, rfl⟩, fun other => ?_⟩
      · rw [made, lockOf?, found]
        rfl
      · refine lockOf?_put ?_ ?_ ?_ other
        · rw [made]
        · rw [made]
          intro former known
          cases found.symm.trans known
        · simp [register, found]

/-- Only a free lock is acquired. -/
theorem free_of_acquire? {next : LockTable} (found : table.lockOf? ticket = some lock)
    (acquired : table.acquire? ticket = some next)
    : lock.isHeld = false
      ∧ next = table.update ticket (fun lock => { lock with isHeld := true }) := by
  cases held : lock.isHeld with
  | true => simp [acquire?, isFree, found, held] at acquired
  | false => simpa [acquire?, isFree, found, held, eq_comm] using acquired

theorem check_eq_ok
    : table.check ticket.key = .ok ticket
      ↔ ∃ lock, table.lockOf? ticket = some lock ∧ lock.isHeld = true := by
  simp only [lockOf?_eq_some]
  rw [check]
  cases found : table.locks.get? ticket.key with
  | none => simp
  | some lock =>
      cases ticket
      cases held : lock.isHeld <;> simp [held]

/-- A lock is discarded just when it has no users, and no other lock is affected. -/
theorem discard_eq (table : LockTable) (key : String)
    : table.discard key
      = if ∃ lock, table.locks.get? key = some lock ∧ lock.users = 0 then
          (true, { table with locks := table.locks.drop key })
        else (false, table) := by
  rw [discard]
  cases found : table.locks.get? key with
  | none => simp
  | some lock => by_cases unused : lock.users = 0 <;> simp [unused]

end

/-- A caller is about to release a lock that it holds, and has released one that it holds no more.
-/
def Caller.IsFit (caller : Caller) : Prop :=
  match caller.stage with
  | .resting | .waiting _ => True
  | .releasing ticket => ticket ∈ caller.held
  | .settling ticket => ticket ∉ caller.held

namespace Crowd

variable {crowd : Crowd}

/-- What holds between a table and its callers. -/
structure IsSound (crowd : Crowd) : Prop where
  /-- Every registration is with a lock that the table still has. -/
  stored : ∀ ticket ∈ crowd.registrations, ∃ lock, crowd.table.lockOf? ticket = some lock
  users_eq : ∀ ticket lock, crowd.table.lockOf? ticket = some lock
    → lock.users = crowd.registrations.count ticket
  isHeld_eq : ∀ ticket lock, crowd.table.lockOf? ticket = some lock
    → lock.isHeld.toNat = crowd.holdings.count ticket
  isFit : ∀ caller ∈ crowd.callers, caller.IsFit

/-- Replacing one of some lists changes a count by the difference, by induction on those in front
of it.
-/
theorem count_flatMap_set {callers : List Caller} {place : Nat} {former : Caller}
    (at_place : callers[place]? = some former) (caller : Caller) (part : Caller → List Ticket)
    (ticket : Ticket)
    : ((callers.set place caller).flatMap part).count ticket + (part former).count ticket
      = (callers.flatMap part).count ticket + (part caller).count ticket := by
  induction callers generalizing place with
  | nil => simp at at_place
  | cons head others ih =>
      cases place with
      | zero =>
          obtain rfl : head = former := by simpa using at_place
          simp only [List.set_cons_zero, List.flatMap_cons, List.count_append]
          omega
      | succ place =>
          have behind := ih (by simpa using at_place)
          simp only [List.set_cons_succ, List.flatMap_cons, List.count_append]
          omega

theorem holdings_subset {ticket : Ticket} (h : ticket ∈ crowd.holdings)
    : ticket ∈ crowd.registrations := by
  obtain ⟨caller, member, held⟩ := List.mem_flatMap.mp h
  exact List.mem_flatMap.mpr ⟨caller, member, List.mem_append_left _ held⟩

section

variable {place : Nat} {former : Caller}

theorem count_registrations_turn (at_place : crowd.callers[place]? = some former)
    (caller : Caller) (table : LockTable) (ticket : Ticket)
    : (crowd.turn place caller table).registrations.count ticket + former.tickets.count ticket
      = crowd.registrations.count ticket + caller.tickets.count ticket :=
  count_flatMap_set at_place caller Caller.tickets ticket

theorem count_holdings_turn (at_place : crowd.callers[place]? = some former)
    (caller : Caller) (table : LockTable) (ticket : Ticket)
    : (crowd.turn place caller table).holdings.count ticket + former.held.count ticket
      = crowd.holdings.count ticket + caller.held.count ticket :=
  count_flatMap_set at_place caller Caller.held ticket

/-- A step of one caller with the lock of one ticket keeps the invariant if the lock counts what
the step does to the registrations and holdings for this ticket, and it does nothing to others.
-/
theorem IsSound.turn (sound : crowd.IsSound) (at_place : crowd.callers[place]? = some former)
    {caller : Caller} {table : LockTable} {ticket : Ticket} {lock : KeyLock}
    (view : ∀ other, table.lockOf? other
      = if other = ticket then some lock else crowd.table.lockOf? other)
    (elsewhere : ∀ other ≠ ticket, caller.tickets.count other = former.tickets.count other
      ∧ caller.held.count other = former.held.count other)
    (users : lock.users + former.tickets.count ticket
      = crowd.registrations.count ticket + caller.tickets.count ticket)
    (isHeld : lock.isHeld.toNat + former.held.count ticket
      = crowd.holdings.count ticket + caller.held.count ticket)
    (isFit : caller.IsFit)
    : (crowd.turn place caller table).IsSound := by
  have registered := count_registrations_turn at_place caller table
  have holding := count_holdings_turn at_place caller table
  constructor
  · intro other member
    change ∃ lock, table.lockOf? other = some lock
    rw [view]
    by_cases same : other = ticket
    · exact ⟨lock, if_pos same⟩
    · rw [if_neg same]
      refine sound.stored other (List.count_pos_iff.mp ?_)
      have positive := List.count_pos_iff.mpr member
      have counted := registered other
      rw [(elsewhere other same).1] at counted
      omega
  · intro other found known
    change table.lockOf? other = some found at known
    have counted := registered other
    rw [view] at known
    by_cases same : other = ticket
    · subst same
      rw [if_pos rfl] at known
      cases known
      omega
    · rw [if_neg same] at known
      have before := sound.users_eq other found known
      rw [(elsewhere other same).1] at counted
      omega
  · intro other found known
    change table.lockOf? other = some found at known
    have counted := holding other
    rw [view] at known
    by_cases same : other = ticket
    · subst same
      rw [if_pos rfl] at known
      cases known
      omega
    · rw [if_neg same] at known
      have before := sound.isHeld_eq other found known
      rw [(elsewhere other same).2] at counted
      omega
  · intro other member
    rcases List.mem_or_eq_of_mem_set member with known | rfl
    · exact sound.isFit other known
    · exact isFit

variable {held : List Ticket} {ticket : Ticket}

/-- A caller at a place registers, holds and waits for what the crowd does. -/
theorem mem_registrations (at_place : crowd.callers[place]? = some former)
    (member : ticket ∈ former.tickets)
    : ticket ∈ crowd.registrations :=
  List.mem_flatMap.mpr ⟨former, List.mem_of_getElem? at_place, member⟩

theorem IsSound.lock (sound : crowd.IsSound)
    (at_place : crowd.callers[place]? = some ⟨held, .resting⟩) (key : String)
    : (crowd.turn place ⟨held, .waiting (crowd.table.register key).1⟩
        (crowd.table.register key).2).IsSound := by
  obtain ⟨lock, before, view⟩ := lockOf?_register crowd.table key
  -- A ticket that finds no lock is one that nobody has.
  have counted : lock.users = crowd.registrations.count (crowd.table.register key).1
      ∧ lock.isHeld.toNat = crowd.holdings.count (crowd.table.register key).1 := by
    rcases before with known | ⟨absent, unused, free⟩
    · exact ⟨sound.users_eq _ _ known, sound.isHeld_eq _ _ known⟩
    · have unknown : (crowd.table.register key).1 ∉ crowd.registrations := by
        intro member
        obtain ⟨lock, known⟩ := sound.stored _ member
        cases absent.symm.trans known
      rw [List.count_eq_zero_of_not_mem unknown, free,
        List.count_eq_zero_of_not_mem (fun member => unknown (holdings_subset member))]
      exact ⟨unused, rfl⟩
  refine sound.turn at_place view (fun other differs => ?_) ?_ ?_ ?_
  · simp [Caller.tickets, Stage.pending, differs.symm]
  · simp only [Caller.tickets, Stage.pending, List.count_append, List.count_singleton_self,
      List.count_nil]
    omega
  · exact congrArg (· + _) counted.2
  · trivial

theorem IsSound.acquire (sound : crowd.IsSound)
    (at_place : crowd.callers[place]? = some ⟨held, .waiting ticket⟩) {table : LockTable}
    (acquired : crowd.table.acquire? ticket = some table)
    : (crowd.turn place ⟨ticket :: held, .resting⟩ table).IsSound := by
  obtain ⟨lock, found⟩ := sound.stored ticket
    (mem_registrations at_place (List.mem_append_right _ (by simp [Stage.pending])))
  obtain ⟨free, rfl⟩ := free_of_acquire? found acquired
  have users := sound.users_eq ticket lock found
  have isHeld := sound.isHeld_eq ticket lock found
  refine sound.turn at_place (lockOf?_update found rfl) (fun other differs => ?_) ?_ ?_ ?_
  · simp [Caller.tickets, Stage.pending, List.count_cons_of_ne differs.symm]
  · simp only [Caller.tickets, Stage.pending, List.count_append, List.count_nil,
      List.count_cons_self]
    omega
  · rw [free] at isHeld
    simp only [List.count_cons_self, Bool.toNat_true, ← isHeld, Bool.toNat_false]
    omega
  · trivial

/-- A lock that a caller holds is held once, by this caller. -/
theorem IsSound.count_eq_one (sound : crowd.IsSound)
    (at_place : crowd.callers[place]? = some former) (member : ticket ∈ former.held)
    : ∃ lock, crowd.table.lockOf? ticket = some lock ∧ lock.isHeld = true
        ∧ crowd.holdings.count ticket = 1 ∧ former.held.count ticket = 1 := by
  obtain ⟨lock, found⟩ := sound.stored ticket
    (mem_registrations at_place (List.mem_append_left _ member))
  have positive := List.count_pos_iff.mpr member
  have isHeld := sound.isHeld_eq ticket lock found
  have atMost := Bool.toNat_le lock.isHeld
  have part := count_holdings_turn at_place {} crowd.table ticket
  rw [List.count_nil] at part
  exact ⟨lock, found, Bool.toNat_eq_one.mp (by omega), by omega, by omega⟩

/-- Who holds a lock finds it by its key. -/
theorem IsSound.check_eq_ok (sound : crowd.IsSound)
    (at_place : crowd.callers[place]? = some former) (member : ticket ∈ former.held)
    : crowd.table.check ticket.key = .ok ticket := by
  obtain ⟨lock, found, isHeld, -⟩ := sound.count_eq_one at_place member
  exact LockTable.check_eq_ok.mpr ⟨lock, found, isHeld⟩

theorem IsSound.unlock (sound : crowd.IsSound)
    (at_place : crowd.callers[place]? = some ⟨held, .resting⟩) (member : ticket ∈ held)
    : (crowd.turn place ⟨held, .releasing ticket⟩ crowd.table).IsSound := by
  obtain ⟨lock, found⟩ := sound.stored ticket
    (mem_registrations at_place (List.mem_append_left _ member))
  -- No lock changes, so this one may stand for a change at its ticket.
  have view (other : Ticket)
      : crowd.table.lockOf? other
        = if other = ticket then some lock else crowd.table.lockOf? other := by
    split
    · next same => rw [same, found]
    · rfl
  refine sound.turn at_place view (fun other _ => ⟨rfl, rfl⟩) ?_ ?_ ?_
  · rw [sound.users_eq ticket lock found]
    rfl
  · rw [sound.isHeld_eq ticket lock found]
  · exact member

theorem IsSound.release (sound : crowd.IsSound)
    (at_place : crowd.callers[place]? = some ⟨held, .releasing ticket⟩)
    : (crowd.turn place ⟨held.erase ticket, .settling ticket⟩
        (crowd.table.release ticket)).IsSound := by
  have member : ticket ∈ held := sound.isFit _ (List.mem_of_getElem? at_place)
  have positive := List.count_pos_iff.mpr member
  obtain ⟨lock, found, isHeld, once, here⟩ := sound.count_eq_one at_place member
  have users := sound.users_eq ticket lock found
  refine sound.turn at_place (lockOf?_update found rfl) (fun other differs => ?_) ?_ ?_ ?_
  · simp [Caller.tickets, Stage.pending, List.count_erase_of_ne differs, differs.symm]
  · simp only [Caller.tickets, Stage.pending, List.count_append, List.count_singleton_self,
      List.count_nil, List.count_erase_self]
    omega
  · rw [List.count_erase_self, once, Bool.toNat_false]
    change 0 + held.count ticket = 1 + (held.count ticket - 1)
    omega
  · have gone : (held.erase ticket).count ticket = 0 := by
      rw [List.count_erase_self, here]
    exact List.count_eq_zero.mp gone

theorem IsSound.settle (sound : crowd.IsSound)
    (at_place : crowd.callers[place]? = some ⟨held, .settling ticket⟩)
    : (crowd.turn place ⟨held, .resting⟩ (crowd.table.settle ticket)).IsSound := by
  have member : ticket ∈ crowd.registrations :=
    mem_registrations at_place (List.mem_append_right _ (by simp [Stage.pending]))
  have positive := List.count_pos_iff.mpr member
  obtain ⟨lock, found⟩ := sound.stored ticket member
  have users := sound.users_eq ticket lock found
  refine sound.turn at_place (lockOf?_update found rfl) (fun other differs => ?_) ?_ ?_ ?_
  · simp [Caller.tickets, Stage.pending, differs.symm]
  · simp only [Caller.tickets, Stage.pending, List.count_append, List.count_singleton_self,
      List.count_nil]
    omega
  · exact congrArg (· + _) (sound.isHeld_eq ticket lock found)
  · trivial

/-- Only a lock without registrations is discarded. -/
theorem IsSound.discard (sound : crowd.IsSound) (key : String)
    : ({ crowd with table := (crowd.table.discard key).2 } : Crowd).IsSound := by
  rw [discard_eq]
  split
  · next unused =>
      obtain ⟨gone, stored, noUsers⟩ := unused
      have view (other : Ticket)
          : ({ crowd.table with locks := crowd.table.locks.drop key }).lockOf? other
            = if other.key = key then none else crowd.table.lockOf? other := by
        rw [lockOf?, lockOf?, Ledger.get?_drop]
        split <;> rfl
      refine ⟨fun ticket member => ?_, fun ticket lock known => ?_, fun ticket lock known => ?_,
        sound.isFit⟩
      · obtain ⟨lock, known⟩ := sound.stored ticket member
        have counted := sound.users_eq ticket lock known
        have positive : 0 < crowd.registrations.count ticket := List.count_pos_iff.mpr member
        refine ⟨lock, (view ticket).trans ?_⟩
        rw [if_neg, known]
        rintro rfl
        cases stored.symm.trans (lockOf?_eq_some.mp known).1
        omega
      · rw [view] at known
        split at known
        · cases known
        · exact sound.users_eq ticket lock known
      · rw [view] at known
        split at known
        · cases known
        · exact sound.isHeld_eq ticket lock known
  · exact sound

/-- Every step keeps the invariant. -/
theorem IsSound.after (sound : crowd.IsSound) (move : Move) : (crowd.after move).IsSound := by
  cases move with
  | lock place key =>
      rw [Crowd.after]
      split
      · next held at_place => exact sound.lock at_place key
      · exact sound
  | acquire place =>
      rw [Crowd.after]
      split
      · next held ticket at_place =>
          split
          · next table acquired => exact sound.acquire at_place acquired
          · exact sound
      · exact sound
  | unlock place key =>
      rw [Crowd.after]
      split
      · next held at_place =>
          split
          · next named =>
              obtain ⟨ticket, member, rfl⟩ := List.mem_map.mp named
              rw [sound.check_eq_ok at_place member]
              exact sound.unlock at_place member
          · exact sound
      · exact sound
  | release place =>
      rw [Crowd.after]
      split
      · next held ticket at_place => exact sound.release at_place
      · exact sound
  | settle place =>
      rw [Crowd.after]
      split
      · next held ticket at_place => exact sound.settle at_place
      · exact sound
  | discard key => exact sound.discard key

/-- A new table has no locks, and its callers have no registrations. -/
theorem isSound_new (count : Nat) : IsSound { callers := List.replicate count {} } := by
  have none_registered
      : registrations { callers := List.replicate count {} } = [] := by
    rw [registrations, List.flatMap_eq_nil_iff]
    intro caller member
    rw [List.eq_of_mem_replicate member]
    rfl
  refine ⟨fun ticket member => ?_, fun ticket lock known => ?_, fun ticket lock known => ?_,
    fun caller member => ?_⟩
  · rw [none_registered] at member
    cases member
  · cases (lockOf?_eq_some.mp known).1
  · cases (lockOf?_eq_some.mp known).1
  · rw [List.eq_of_mem_replicate member]
    trivial

/-- The invariant holds whatever the callers do, by induction on their steps. -/
theorem isSound_reached (count : Nat) (moves : List Move) : (reached count moves).IsSound := by
  suffices ∀ crowd : Crowd, crowd.IsSound → (moves.foldl Crowd.after crowd).IsSound from
    this _ (isSound_new count)
  induction moves with
  | nil => exact fun _ sound => sound
  | cons move moves ih => exact fun crowd sound => ih _ (sound.after move)

/-- Where no caller has two registrations of a kind, they are as many as the callers with one. -/
theorem count_flatMap_tickets {callers : List Caller} {ticket : Ticket}
    (once : ∀ caller ∈ callers, caller.tickets.count ticket ≤ 1)
    : (callers.flatMap Caller.tickets).count ticket
      = callers.countP (fun caller => decide (ticket ∈ caller.tickets)) := by
  induction callers with
  | nil => rfl
  | cons caller others ih =>
      have here := once caller (by simp)
      rw [List.flatMap_cons, List.count_append, List.countP_cons,
        ih (fun other member => once other (List.mem_cons_of_mem _ member))]
      by_cases member : ticket ∈ caller.tickets
      · have positive := List.count_pos_iff.mpr member
        simp only [member, decide_true, if_true]
        omega
      · simp [member, List.count_eq_zero_of_not_mem member]

/-- Only a caller that waits for a lock which it holds has two registrations with it. -/
theorem IsSound.count_tickets (sound : crowd.IsSound)
    (at_place : crowd.callers[place]? = some former)
    (patient : ticket ∈ former.held → former.stage ≠ .waiting ticket)
    : former.tickets.count ticket ≤ 1 := by
  have isFit := sound.isFit former (List.mem_of_getElem? at_place)
  obtain ⟨held, stage⟩ := former
  rw [Caller.tickets, List.count_append]
  by_cases member : ticket ∈ held
  · obtain ⟨-, -, -, -, once⟩ := sound.count_eq_one at_place member
    have nothing : ticket ∉ stage.pending := by
      intro pending
      cases stage with
      | resting | releasing other => cases pending
      | waiting other => exact patient member (by simpa using (List.mem_singleton.mp pending).symm)
      | settling other =>
          obtain rfl := List.mem_singleton.mp pending
          exact isFit member
    rw [List.count_eq_zero_of_not_mem nothing]
    exact Nat.le_of_eq once
  · rw [List.count_eq_zero_of_not_mem member, Nat.zero_add]
    refine Nat.le_trans List.count_le_length ?_
    cases stage <;> simp [Stage.pending]

/-- Two callers that hold locks of one key are the same, and hold one lock once. -/
theorem IsSound.eq_of_key_eq (sound : crowd.IsSound) {second : Nat} {other : Caller}
    {rival : Ticket} (at_place : crowd.callers[place]? = some former)
    (at_second : crowd.callers[second]? = some other) (member : ticket ∈ former.held)
    (rivals : rival ∈ other.held) (sameKey : ticket.key = rival.key)
    : place = second ∧ ticket = rival ∧ former.held.count ticket = 1 := by
  -- Both find their lock by the same key, so both have a ticket for the same lock.
  have found := sound.check_eq_ok at_place member
  rw [sameKey, sound.check_eq_ok at_second rivals] at found
  cases found
  obtain ⟨-, -, -, once, here⟩ := sound.count_eq_one at_place member
  refine ⟨?_, rfl, here⟩
  by_contra apart
  -- Without the first caller, the second would still hold the lock that is held once.
  have left := count_holdings_turn at_place {} crowd.table ticket
  have stays : (crowd.turn place {} crowd.table).callers[second]? = some other := by
    rw [Crowd.turn, List.getElem?_set_ne apart, at_second]
  have member : ticket ∈ (crowd.turn place {} crowd.table).holdings :=
    List.mem_flatMap.mpr ⟨other, List.mem_of_getElem? stays, rivals⟩
  have positive := List.count_pos_iff.mpr member
  rw [List.count_nil] at left
  omega

end

/-- Callers of a lock table take turns, whatever the order of their steps. No two of them hold a
key at once, and none holds it twice. The users of a lock are the registrations with it that are
not settled, which are as many as the callers that have one, unless one waits for itself. Locks
with registrations stay in the table, and exactly those without users are discarded. Who holds a
key finds the lock that it acquired when it unlocks the key, and the lock is still held when it is
released.
-/
theorem takes_turns (count : Nat) (moves : List Move)
    : let crowd := reached count moves
      (∀ (first second : Nat) (caller other : Caller), crowd.callers[first]? = some caller
          → crowd.callers[second]? = some other
          → ∀ ticket ∈ caller.held, ∀ rival ∈ other.held, ticket.key = rival.key
          → first = second ∧ ticket = rival ∧ caller.held.count ticket = 1)
      ∧ (∀ key lock, crowd.table.locks.get? key = some lock
          → let ticket : Ticket := ⟨key, lock.generation⟩
            lock.users = crowd.registrations.count ticket
            ∧ ((∀ caller ∈ crowd.callers, ticket ∈ caller.held → caller.stage ≠ .waiting ticket)
                → lock.users
                  = crowd.callers.countP (fun caller => decide (ticket ∈ caller.tickets))))
      ∧ (∀ ticket ∈ crowd.registrations, ∃ lock,
          crowd.table.locks.get? ticket.key = some lock ∧ lock.generation = ticket.generation)
      ∧ (∀ key, ((crowd.table.discard key).1 = true
            ↔ ∃ lock, crowd.table.locks.get? key = some lock ∧ lock.users = 0)
          ∧ ∀ other, (crowd.after (.discard key)).table.locks.get? other
              = if other = key ∧ (crowd.table.discard key).1 then none
                else crowd.table.locks.get? other)
      ∧ ∀ (place : Nat) (caller : Caller), crowd.callers[place]? = some caller
          → (∀ ticket ∈ caller.held, crowd.table.check ticket.key = .ok ticket)
            ∧ ∀ ticket, caller.stage = .releasing ticket
              → ticket ∈ caller.held
                ∧ ∃ lock, crowd.table.locks.get? ticket.key = some lock
                  ∧ lock.generation = ticket.generation ∧ lock.isHeld = true := by
  intro crowd
  have sound : crowd.IsSound := isSound_reached count moves
  refine ⟨?_, ?_, ?_, ?_, ?_⟩
  · intro first second caller other at_first at_second ticket member rival rivals
    exact sound.eq_of_key_eq at_first at_second member rivals
  · intro key lock stored ticket
    have users : lock.users = crowd.registrations.count ticket :=
      sound.users_eq ticket lock (lockOf?_eq_some.mpr ⟨stored, rfl⟩)
    refine ⟨users, fun patient => users.trans (count_flatMap_tickets fun caller member => ?_)⟩
    obtain ⟨place, at_place⟩ := List.mem_iff_getElem?.mp member
    exact sound.count_tickets at_place (patient caller member)
  · intro ticket member
    obtain ⟨lock, found⟩ := sound.stored ticket member
    exact ⟨lock, lockOf?_eq_some.mp found⟩
  · intro key
    rw [Crowd.after, discard_eq]
    split
    · next unused =>
        refine ⟨by simpa using unused, fun other => ?_⟩
        simp [Ledger.get?_drop]
    · next used => exact ⟨by simpa using used, by simp⟩
  · intro place caller at_place
    refine ⟨fun ticket member => sound.check_eq_ok at_place member, fun ticket stage => ?_⟩
    have member : ticket ∈ caller.held := by
      have isFit := sound.isFit caller (List.mem_of_getElem? at_place)
      rwa [Caller.IsFit, stage] at isFit
    obtain ⟨lock, found, isHeld, -⟩ := sound.count_eq_one at_place member
    obtain ⟨stored, named⟩ := lockOf?_eq_some.mp found
    exact ⟨member, lock, stored, named, isHeld⟩

/-- A lock is passed on while its first holder has not settled and others try to discard it. -/
theorem takes_turns_relay
    : let crowd := reached 2 [.lock 0 "a", .acquire 0, .lock 1 "a", .discard "a", .acquire 1,
        .unlock 0 "a", .release 0, .acquire 1, .discard "a"]
      crowd.callers = [⟨[], .settling ⟨"a", 0⟩⟩, ⟨[⟨"a", 0⟩], .resting⟩]
      ∧ crowd.table.locks.get? "a" = some ⟨0, true, 2⟩
      ∧ crowd.callers.countP (fun caller => decide (⟨"a", 0⟩ ∈ caller.tickets)) = 2
      ∧ crowd.table.check "a" = .ok ⟨"a", 0⟩ := by
  intro crowd
  have callers : crowd.callers = [⟨[], .settling ⟨"a", 0⟩⟩, ⟨[⟨"a", 0⟩], .resting⟩] := by decide
  have stored : crowd.table.locks.get? "a" = some ⟨0, true, 2⟩ := by decide
  obtain ⟨-, users, -, -, unlocking⟩ := takes_turns 2 [.lock 0 "a", .acquire 0, .lock 1 "a",
    .discard "a", .acquire 1, .unlock 0 "a", .release 0, .acquire 1, .discard "a"]
  obtain ⟨-, counted⟩ := users "a" ⟨0, true, 2⟩ stored
  have patient : ∀ caller ∈ crowd.callers, (⟨"a", 0⟩ : Ticket) ∈ caller.held
      → caller.stage ≠ .waiting ⟨"a", 0⟩ := by
    rw [callers]
    decide
  refine ⟨callers, stored, (counted patient).symm, ?_⟩
  exact (unlocking 1 ⟨[⟨"a", 0⟩], .resting⟩ (by rw [callers]; rfl)).1 ⟨"a", 0⟩ (by simp)

end Crowd

end DiscVolume.LockTable
