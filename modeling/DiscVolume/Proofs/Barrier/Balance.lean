import DiscVolume.Barrier.Call
import DiscVolume.Proofs.Barrier.Rest

/-! Locks are balanced. A call on a session at rest, and all calls that its run function makes to
any depth, ask for a lock only when none is held, hold one at a time, and leave all locks free. So
calls never wait for a lock that an outer call holds.
-/

namespace DiscVolume

namespace LockTable

def IsHeld (table : LockTable) (key : String) : Prop :=
  ∃ lock, table.locks.get? key = some lock ∧ lock.isHeld = true

/-- An event tells of a step of a table. Who says that a key is locked has acquired the lock of that
key, and who says that it is unlocked has released the lock and settled the registration.
-/
def Tells (table : LockTable) (event : LockEvent) (next : LockTable) : Prop :=
  match event with
  | .locking key => next = (table.register key).2
  | .locked key =>
      ∃ ticket lock, ticket.key = key ∧ table.lockOf? ticket = some lock
        ∧ table.acquire? ticket = some next
  | .unlocking key => next = table ∧ ∃ ticket, table.check key = .ok ticket
  | .unlocked key =>
      ∃ ticket, table.check key = .ok ticket ∧ next = (table.release ticket).settle ticket

/-- A table passes through the tables of a trace, each with the event that tells of the step to it.
Nothing is told of locks that are discarded in between.
-/
inductive Passes : LockTable → List (LockEvent × LockTable) → LockTable → Prop where
  | done (table : LockTable) : Passes table [] table
  | discard {table next : LockTable} {trace : List (LockEvent × LockTable)} (key : String)
      (others : Passes (table.discard key).2 trace next)
      : Passes table trace next
  | tell {table after next : LockTable} {trace : List (LockEvent × LockTable)} {event : LockEvent}
      (tells : table.Tells event after) (others : Passes after trace next)
      : Passes table ((event, after) :: trace) next

theorem Passes.trans {table middle next : LockTable} {first second : List (LockEvent × LockTable)}
    (passes : table.Passes first middle) (goesOn : middle.Passes second next)
    : table.Passes (first ++ second) next := by
  induction passes with
  | done table => exact goesOn
  | discard key _ ih => exact .discard key (ih goesOn)
  | tell tells _ ih => exact .tell tells (ih goesOn)

/-- At every step of a trace at most one key is held, and a key that is asked for is not. -/
def TakesTurns (trace : List (LockEvent × LockTable)) : Prop :=
  ∀ event table, (event, table) ∈ trace
    → (∀ key other, table.IsHeld key → table.IsHeld other → key = other)
      ∧ ∀ key, event = .locking key → ¬ table.IsHeld key

variable {table : LockTable} {key other : String} {lock : KeyLock}

theorem IsAtRest.not_isHeld (rest : table.IsAtRest) (key : String) : ¬ table.IsHeld key := by
  rintro ⟨lock, found, isHeld⟩
  rw [(rest key lock found).1] at isHeld
  cases isHeld

/-- Where all locks are at rest but the one that was put under a key, no other key is held. -/
theorem IsAtRest.isHeld_setLock (rest : table.IsAtRest)
    (held : (table.setLock key lock).IsHeld other)
    : other = key ∧ lock.isHeld = true := by
  obtain ⟨stored, found, isHeld⟩ := held
  rw [setLock, Ledger.get?_put] at found
  split at found
  · next same =>
      cases found
      exact ⟨same, isHeld⟩
  · exact absurd ⟨stored, found, isHeld⟩ (rest.not_isHeld other)

/-- The turn of a caller at a table at rest: it registers, acquires the lock, finds that it is held
and gives it up.
-/
theorem IsAtRest.exists_turn (rest : table.IsAtRest) (key : String)
    : ∃ trace, trace.map Prod.fst = [.locking key, .locked key, .unlocking key, .unlocked key]
        ∧ table.Passes trace (table.provide key)
        ∧ TakesTurns trace := by
  obtain ⟨lock, found, registers⟩ := table.register_eq key
  obtain ⟨_, same, acquires⟩ := rest.acquire? key
  cases found.symm.trans same
  have provided := rest.provide key
  obtain ⟨ticket, checked, settled⟩ := provided.settle found
  let registered := (table.provide key).setLock key { lock with users := lock.users + 1 }
  let taken := (table.provide key).setLock key lock.taken
  rw [registers] at acquires
  have known : registered.lockOf? ⟨key, lock.generation⟩
      = some { lock with users := lock.users + 1 } :=
    (table.provide key).lockOf?_setLock key { lock with users := lock.users + 1 }
  have waits (other : String) : ¬ registered.IsHeld other := by
    intro held
    have isHeld := (provided.isHeld_setLock held).2
    rw [(provided key lock found).1] at isHeld
    cases isHeld
  have alone (first second : String) (one : taken.IsHeld first) (another : taken.IsHeld second)
      : first = second :=
    (provided.isHeld_setLock one).1.trans (provided.isHeld_setLock another).1.symm
  refine ⟨[(.locking key, registered), (.locked key, taken), (.unlocking key, taken),
    (.unlocked key, table.provide key)], rfl, ?_, ?_⟩
  · have registering : table.Tells (.locking key) registered := by rw [Tells, registers]
    have acquiring : registered.Tells (.locked key) taken :=
      ⟨⟨key, lock.generation⟩, _, rfl, known, acquires⟩
    have checking : taken.Tells (.unlocking key) taken := ⟨rfl, ticket, checked⟩
    have settling : taken.Tells (.unlocked key) (table.provide key) :=
      ⟨ticket, checked, settled.symm⟩
    exact .tell registering (.tell acquiring (.tell checking (.tell settling (.done _))))
  · intro event next member
    simp only [List.mem_cons, Prod.mk.injEq, List.not_mem_nil, or_false] at member
    rcases member with ⟨rfl, rfl⟩ | ⟨rfl, rfl⟩ | ⟨rfl, rfl⟩ | ⟨rfl, rfl⟩
    · exact ⟨fun first _ one _ => absurd one (waits first), fun asked _ => waits asked⟩
    · exact ⟨alone, nofun⟩
    · exact ⟨alone, nofun⟩
    · exact ⟨fun first _ one _ => absurd one (provided.not_isHeld first), nofun⟩

end LockTable

namespace Session

open LockTable

/-- From one session to a later one the locks have passed through a trace, the events of which are
in the journal, and callers have taken turns. In the later session the locks are at rest.
-/
structure Balances (session later : Session α ε) (trace : List (LockEvent × LockTable))
    : Prop where
  rest : later.locks.IsAtRest
  journal : later.journal = session.journal ++ trace.map Prod.fst
  passes : session.locks.Passes trace later.locks
  turns : TakesTurns trace

theorem Balances.trans {session middle later : Session α ε}
    {first second : List (LockEvent × LockTable)} (balances : session.Balances middle first)
    (goesOn : middle.Balances later second)
    : session.Balances later (first ++ second) where
  rest := goesOn.rest
  journal := by rw [goesOn.journal, balances.journal, List.map_append, List.append_assoc]
  passes := balances.passes.trans goesOn.passes
  turns event table member :=
    (List.mem_append.mp member).elim (balances.turns event table) (goesOn.turns event table)

/-- A session at rest always lets a request end, and is at rest again when it has ended. -/
def IsBalanced (request : Calling α ε β) : Prop :=
  ∀ session, session.locks.IsAtRest
    → ∃ outcome later trace, request session = some (outcome, later)
      ∧ session.Balances later trace

/-- What a caller does on its own has no part in the locks. -/
def IsAside (request : Calling α ε β) : Prop :=
  ∀ session, ∃ outcome later, request session = some (outcome, later)
    ∧ later.locks = session.locks
    ∧ later.journal = session.journal

namespace IsBalanced

variable {request : Calling α ε β} {next : β → Calling α ε γ}

theorem of_isAside (aside : IsAside request) : IsBalanced request := by
  intro session rest
  obtain ⟨outcome, later, performed, locks, journal⟩ := aside session
  refine ⟨outcome, later, [], performed, ?_⟩
  exact {
    rest := locks ▸ rest
    journal := journal.trans (List.append_nil _).symm
    passes := locks ▸ .done _
    turns := fun _ _ member => absurd member List.not_mem_nil
  }

theorem pure (outcome : β) : IsBalanced (pure outcome : Calling α ε β) :=
  of_isAside fun session => ⟨outcome, session, rfl, rfl, rfl⟩

/-- The second of two requests finds the session at rest, as the first did. -/
theorem bind (first : IsBalanced request) (others : ∀ outcome, IsBalanced (next outcome))
    : IsBalanced (request >>= next) := by
  intro session rest
  obtain ⟨found, middle, before, performed, balances⟩ := first session rest
  obtain ⟨outcome, later, behind, ends, goesOn⟩ := others found middle balances.rest
  exact ⟨outcome, later, before ++ behind, (bind_of_eq_some performed).trans ends,
    balances.trans goesOn⟩

/-- A step with a lock held is one turn. -/
theorem holding (key : String) (step : Seconds → Barrier α ε → β × Barrier α ε)
    : IsBalanced (holding key step) := by
  intro session rest
  obtain ⟨trace, events, passes, turns⟩ := rest.exists_turn key
  refine ⟨_, _, trace, holding_eq rest key step, ?_⟩
  exact {
    rest := rest.provide key
    journal := by rw [events, List.append_assoc]; rfl
    passes := passes
    turns := turns
  }

theorem discard (key : String) : IsBalanced (discard key : Calling α ε Unit) := by
  intro session rest
  refine ⟨(), _, [], rfl, ?_⟩
  exact {
    rest := rest.discard key
    journal := (List.append_nil _).symm
    passes := .discard key (.done _)
    turns := fun _ _ member => absurd member List.not_mem_nil
  }

/-- The run function of a contribution is called between two turns, with no lock held. -/
theorem offer {contribution : Contribution α} {work : Ledger α → Calling α ε (Ending α ε × β)}
    (working : ∀ items, IsBalanced (work items))
    : IsBalanced (offer contribution work) := by
  refine (holding _ _).bind fun turn => ?_
  cases turn with
  | answered response => exact pure _
  | untimed fault => exact pure _
  | mustRun items => exact (working items).bind fun _ => (holding _ _).bind fun _ => pure _

theorem forget (name : String)
    : IsBalanced (forget name : Calling α ε (Except Refusal Bool)) := by
  refine (holding _ _).bind fun outcome => ?_
  cases outcome with
  | ok existed => exact (discard name).bind fun _ => pure _
  | error refusal => exact pure _

/-- An eviction is a turn for each operation that it looks at. -/
theorem evictAmong (age : Seconds) (names : List String)
    : IsBalanced (evictAmong age names : Calling α ε (Except ClockFault (List String))) := by
  induction names with
  | nil => exact pure _
  | cons name others ih =>
      unfold Session.evictAmong
      refine (holding _ _).bind fun outcome => ?_
      cases outcome with
      | error fault => exact pure _
      | ok isDue =>
          cases isDue with
          | false => exact ih
          | true => exact (discard name).bind fun _ => ih.bind fun _ => pure _

theorem evict (age : Seconds)
    : IsBalanced (evict age : Calling α ε (Except ClockFault (List String))) :=
  (of_isAside fun session => ⟨session, session, rfl, rfl, rfl⟩).bind fun _ => evictAmong age _

end IsBalanced

/-- Requests that consist of calls, one after the other, and of what a caller does on its own in
between. Each call may depend on what those before it have answered. A run function makes such a
request, too, and ends as it likes.
-/
inductive ConsistsOfCalls : {β : Type} → Calling α ε β → Prop where
  | aside {β : Type} {request : Calling α ε β} (isAside : IsAside request)
      : ConsistsOfCalls request
  | offer {β : Type} (contribution : Contribution α)
      {work : Ledger α → Calling α ε (Ending α ε × β)}
      (working : ∀ items, ConsistsOfCalls (work items))
      : ConsistsOfCalls (offer contribution work)
  | forget (name : String) : ConsistsOfCalls (forget name)
  | evict (age : Seconds) : ConsistsOfCalls (evict age)
  | bind {β γ : Type} {request : Calling α ε β} {next : β → Calling α ε γ}
      (first : ConsistsOfCalls request) (others : ∀ outcome, ConsistsOfCalls (next outcome))
      : ConsistsOfCalls (request >>= next)

namespace ConsistsOfCalls

theorem pure (outcome : β) : ConsistsOfCalls (pure outcome : Calling α ε β) :=
  .aside fun session => ⟨outcome, session, rfl, rfl, rfl⟩

theorem elapse (interval : Seconds)
    : ConsistsOfCalls (elapse interval : Calling α ε (Except ClockFault Unit)) := by
  refine .aside fun session => ?_
  have looked : (get : Calling α ε (Session α ε)) session = some (session, session) := rfl
  rw [Session.elapse, bind_of_eq_some looked]
  cases session.now.plus interval with
  | error fault => exact ⟨_, session, rfl, rfl, rfl⟩
  | ok now => exact ⟨_, { session with now }, rfl, rfl, rfl⟩

/-- Attempts are made one after the other, with the calls of the pauses in between. -/
theorem persist {attempt : Calling α ε (Attempt α ε × Option β)} {interval : Seconds}
    (attempting : ConsistsOfCalls attempt) (patience : Nat)
    (pauses : List (Calling α ε (List γ))) (pausing : ∀ pause ∈ pauses, ConsistsOfCalls pause)
    : ConsistsOfCalls (persist attempt interval pauses patience) := by
  induction patience generalizing pauses with
  | zero =>
      unfold Session.persist
      refine attempting.bind fun (result, work) => ?_
      dsimp only
      split <;> exact pure _
  | succ patience ih =>
      unfold Session.persist
      refine attempting.bind fun (result, work) => ?_
      dsimp only
      split
      · exact pure _
      · refine (elapse interval).bind fun passed => ?_
        cases passed with
        | error fault => exact pure _
        | ok _ =>
            have next : ConsistsOfCalls (pauses.headD (Pure.pure [])) := by
              cases pauses with
              | nil => exact pure []
              | cons pause others => exact pausing pause List.mem_cons_self
            refine next.bind fun pause => ?_
            exact (ih pauses.tail fun other member =>
              pausing other (List.mem_of_mem_tail member)).bind fun _ => pure _

theorem report (answer : Answer α ε) (run : Option (Ledger α × List (Report α ε)))
    (pauses : List (List (Report α ε)))
    : ConsistsOfCalls (answer.report run pauses) :=
  .aside fun session => ⟨_, session, rfl, rfl, rfl⟩

mutual

/-- Calls that are given as values consist of calls, those of run functions and pauses included. -/
theorem perform : (call : Call α ε) → ConsistsOfCalls call.perform
  | .offer contribution during ending => by
      unfold Call.perform
      refine ConsistsOfCalls.bind (.offer _ fun items => ?_) fun _ => report _ _ _
      exact (performAll during).bind fun _ => pure _
  | .persist contribution during ending interval pauses patience => by
      unfold Call.perform
      refine ConsistsOfCalls.bind (.persist (.offer _ fun items => ?_) patience _ ?_)
        fun _ => report _ _ _
      · exact (performAll during).bind fun _ => pure _
      · exact performEach pauses
  | .setClock now => by
      unfold Call.perform
      exact ConsistsOfCalls.bind (.aside fun session => ⟨_, _, rfl, rfl, rfl⟩)
        fun _ => report _ _ _
  | .forget operation => by
      unfold Call.perform
      exact (ConsistsOfCalls.forget operation).bind fun _ => report _ _ _
  | .evict age => by
      unfold Call.perform
      exact (ConsistsOfCalls.evict age).bind fun _ => report _ _ _

theorem performAll : (calls : List (Call α ε)) → ConsistsOfCalls (Call.performAll calls)
  | [] => by
      unfold Call.performAll
      exact pure _
  | call :: others => by
      unfold Call.performAll
      exact (perform call).bind fun _ => (performAll others).bind fun _ => pure _

theorem performEach
    : (groups : List (List (Call α ε))) → ∀ request ∈ Call.performEach groups,
        ConsistsOfCalls request
  | [], _, member => by
      unfold Call.performEach at member
      cases member
  | calls :: others, request, member => by
      unfold Call.performEach at member
      rcases List.mem_cons.mp member with rfl | member
      · exact performAll calls
      · exact performEach others request member

end

/-- Calls are balanced to any depth, by induction on how they are put together. -/
theorem isBalanced {request : Calling α ε β} (calls : ConsistsOfCalls request)
    : IsBalanced request := by
  induction calls with
  | aside isAside => exact .of_isAside isAside
  | offer contribution _ ih => exact .offer ih
  | forget name => exact .forget name
  | evict age => exact .evict age
  | bind _ _ first others => exact first.bind others

end ConsistsOfCalls

/-- Calls that find all locks at rest come to an end, whatever their run functions call in turn and
however these end. The locks pass through steps in each of which one key at most is held, and a key
is only asked for while it is not held. All locks that are left are at rest.
-/
theorem locks_balanced {session : Session α ε} {request : Calling α ε β}
    (calls : ConsistsOfCalls request) (rest : session.locks.IsAtRest)
    : ∃ outcome later trace, request session = some (outcome, later)
        ∧ (∀ key lock, later.locks.locks.get? key = some lock
            → lock.isHeld = false ∧ lock.users = 0)
        ∧ session.locks.Passes trace later.locks
        ∧ later.journal = session.journal ++ trace.map Prod.fst
        ∧ ∀ event table, (event, table) ∈ trace
            → (∀ key other, table.IsHeld key → table.IsHeld other → key = other)
              ∧ ∀ key, event = .locking key → ¬ table.IsHeld key := by
  obtain ⟨outcome, later, trace, performed, balances⟩ := calls.isBalanced session rest
  exact ⟨outcome, later, trace, performed, balances.rest, balances.passes, balances.journal,
    balances.turns⟩

/-- A run function calls for its own operation again, tries to drop it, and has another operation
run, whose run function evicts what has finished and is interrupted. Then it raises an error.
-/
theorem locks_balanced_nested
    : let contribution (operation : String) : Contribution Nat :=
        { operation, item := "a", howMany := some 1, value := 7, client := 0 }
      let inner : List (Call Nat Nat) :=
        [.offer (contribution "g") [] fun _ => .returned 1, .forget "g",
          .offer (contribution "h") [.evict 0] fun _ => .interrupted, .forget "h"]
      let call : Call Nat Nat := .offer (contribution "g") inner fun _ => .raised 5
      LockTable.IsAtRest (({} : Session Nat Nat)).locks
      ∧ ∃ report later trace, call.perform {} = some (report, later)
        ∧ later.locks.locks.keys = ["g"]
        ∧ later.locks.IsAtRest
        ∧ trace.length = 36
        ∧ LockTable.Passes ({} : Session Nat Nat).locks trace later.locks
        ∧ LockTable.TakesTurns trace := by
  intro contribution inner call
  have rest : ({} : Session Nat Nat).locks.IsAtRest := nofun
  obtain ⟨report, later, trace, performed, atRest, passes, journal, turns⟩ :=
    locks_balanced (ConsistsOfCalls.perform call) rest
  have seen : (call.perform {}).map
      (fun result => (result.2.locks.locks.keys, result.2.journal.length))
        = some (["g"], 36) := by decide +kernel
  rw [performed, Option.map_some, Option.some.injEq, Prod.mk.injEq, journal] at seen
  refine ⟨rest, report, later, trace, performed, seen.1, atRest, ?_, passes, turns⟩
  simpa using seen.2

end Session

end DiscVolume
