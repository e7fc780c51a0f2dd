import DiscVolume.Proofs.Barrier.Rest
import DiscVolume.Proofs.Barrier.Turns
import Mathlib.Data.List.Count
import Mathlib.Data.List.Nodup

/-! The requests of all callers of a session, taken apart into events, each of which is made at a
reading of the clock and finds the session at rest. What an event means to one name is said by
functions of what is stored under that name and of whether the name has a lock; all that later
modules need to know of a request is the lemma that an event does what these functions say.
-/

namespace DiscVolume

namespace Seconds

/-- Whether a time has a value in floating point. -/
def isMeasured (time : Seconds) : Bool := time.rounded.isOk

/-- The time between two measured times can be told. -/
theorem minus_of_isMeasured {a b : Seconds} (left : a.isMeasured) (right : b.isMeasured)
    : ∃ span, a.minus b = .ok span := by
  unfold Seconds.minus
  split
  · exact ⟨_, rfl⟩
  · rw [isMeasured] at left right
    cases known : a.rounded with
    | error fault =>
        rw [known] at left
        cases left
    | ok first =>
        cases same : b.rounded with
        | error fault =>
            rw [same] at right
            cases right
        | ok second => exact ⟨_, rfl⟩

end Seconds

/-- What a clock shows: clocks tell the time in floating point, or in whole numbers that are not too
large for that.
-/
structure Reading where
  time : Seconds
  isMeasured : time.isMeasured

/-- A reading in floating point. -/
def Reading.ofNumber (value : Binary64) : Reading := ⟨.fraction value, rfl⟩

namespace Operation

/-- Whether the end of an operation is a time that a clock has shown. -/
def IsTimed (operation : Operation α ε) : Prop :=
  ∀ verdict ended, operation.phase = .finished verdict ended → ended.isMeasured

theorem phase_proceed (operation : Operation α ε) (now runTimeout : Seconds)
    : (operation.proceed now runTimeout).2.phase = operation.phase
      ∨ (operation.proceed now runTimeout).2.phase = .running now := by
  unfold proceed
  split
  · exact Or.inl rfl
  · split <;> exact Or.inl rfl
  · exact Or.inr rfl

theorem phase_accept (operation : Operation α ε) (contribution : Contribution α) (now : Seconds)
    : (operation.accept contribution now).2.phase = operation.phase
      ∨ (operation.accept contribution now).2.phase = .running now := by
  unfold accept
  split
  · exact operation.phase_proceed now contribution.runTimeout
  · split
    · exact Or.inl rfl
    · exact Or.inl rfl
    · dsimp only
      rw [← operation.phase_collect contribution.item contribution.value]
      split
      · exact phase_proceed _ now contribution.runTimeout
      · exact Or.inl rfl

theorem IsTimed.isDue {operation : Operation α ε} (timed : operation.IsTimed) (age : Seconds)
    (now : Reading)
    : ∃ due, operation.isDue age now.time = .ok due := by
  unfold Operation.isDue
  split
  · next verdict ended finished =>
      have known := timed verdict ended finished
      obtain ⟨span, passed⟩ := Seconds.minus_of_isMeasured now.isMeasured known
      rw [passed]
      exact ⟨_, rfl⟩
  · exact ⟨_, rfl⟩
  · exact ⟨_, rfl⟩

end Operation

namespace Session

/-- A part of a request that is made when the session is at rest. A contribution is up to its
answer or to the start of the run that falls to the caller, and the end of the run is a part of
its own. An eviction is made as a whole, or taken apart into a survey of the operations and a
visit to each of them.
-/
inductive Event (α ε : Type) where
  | enter (contribution : Contribution α)
  | conclude (operation : String) (ending : Ending α ε)
  | forget (operation : String)
  | survey
  | visit (operation : String) (age : Seconds)
  | evict (age : Seconds)

/-- What comes of an event. -/
inductive Outcome (α ε : Type) where
  | turned (turn : Turn α ε)
  | concluded (attempt : Attempt α ε)
  | forgotten (answer : Except Refusal Bool)
  | surveyed (names : List String)
  | visited (answer : Except ClockFault Bool)
  | evicted (answer : Except ClockFault (List String))

namespace Event

def perform : Event α ε → Calling α ε (Outcome α ε)
  | enter contribution => do
      return .turned (← holding contribution.operation fun now barrier =>
        barrier.enter contribution now)
  | conclude name ending => do return .concluded (← holding name (Session.conclude name ending))
  | forget name => do return .forgotten (← Session.forget name)
  | survey => do return .surveyed (← get).barrier.operations.keys
  | visit name age => do return .visited (← Session.visit age name)
  | evict age => do return .evicted (← Session.evict age)

/-- Performs events one after the other, each at the time of its reading. -/
def performAll : List (Event α ε × Reading) → Calling α ε (List (Event α ε × Outcome α ε))
  | [] => pure []
  | (event, now) :: others => do
      modify fun session => { session with now := now.time }
      let outcome ← event.perform
      let reports ← performAll others
      return (event, outcome) :: reports

/-- The name of the operation that an event is for, unless it is for all. -/
def subject? : Event α ε → Option String
  | enter contribution => some contribution.operation
  | conclude name _ | forget name | visit name _ => some name
  | survey | evict _ => none

/-- Whether an event is for the operation of a name, or for all. -/
def concerns (name : String) (event : Event α ε) : Bool := event.subject?.all (· = name)

/-- What an event that concerns a name makes of what is stored under it. -/
def meet (name : String) (now : Seconds) (event : Event α ε) (stored : Option (Operation α ε))
    : Outcome α ε × Option (Operation α ε) :=
  match event with
  | enter contribution =>
      (.turned (contribution.meet now stored).1, (contribution.meet now stored).2)
  | conclude _ ending => (.concluded ending.attempt, stored.map (·.ended (ending.phase now)))
  | forget name =>
      (.forgotten (Operation.forgotten name stored).1, (Operation.forgotten name stored).2)
  | survey => (.surveyed (if stored.isSome then [name] else []), stored)
  | visit _ age =>
      (.visited (Operation.evicted age now stored).1, (Operation.evicted age now stored).2)
  | evict age =>
      (.evicted (.ok (if Operation.isGone age now stored then [name] else [])),
        (Operation.evicted age now stored).2)

/-- Whether a name has a lock after an event that concerns it. An eviction passes over a name under
which nothing is stored, a visit does not.
-/
def retains (now : Seconds) (event : Event α ε) (stored : Option (Operation α ε))
    (isLocked : Bool)
    : Bool :=
  match event with
  | enter _ | conclude _ _ => true
  | forget name => (Operation.forgotten name stored).2.isSome
  | survey => isLocked
  | visit _ age => !Operation.isGone age now stored
  | evict age => if stored.isSome then !Operation.isGone age now stored else isLocked

end Event

/-- What an outcome says about a name. -/
def Outcome.within (name : String) : Outcome α ε → Outcome α ε
  | surveyed names => surveyed (names.filter (· = name))
  | evicted (.ok names) => evicted (.ok (names.filter (· = name)))
  | evicted (.error fault) => evicted (.error fault)
  | turned turn => turned turn
  | concluded attempt => concluded attempt
  | forgotten answer => forgotten answer
  | visited answer => visited answer

/-- An event for a name changes the operation and the lock of that name alone. -/
theorem perform_isBut {session : Session α ε} (rest : session.locks.IsAtRest) {event : Event α ε}
    {name : String} (named : event.subject? = some name)
    : ∃ next,
        event.perform session
          = some ((event.meet name session.now (session.stored? name)).1, next)
        ∧ next.IsBut session name (event.meet name session.now (session.stored? name)).2
            (event.retains session.now (session.stored? name) (session.hasLock name)) := by
  cases event with
  | enter contribution =>
      cases named
      obtain ⟨next, performed, but⟩ := holding_isBut rest
        (fun now barrier => barrier.enter contribution now)
        (Barrier.actsOn_enter contribution session.now)
      exact ⟨next, bind_of_eq_some performed, but⟩
  | conclude name ending =>
      cases named
      obtain ⟨next, performed, but⟩ := holding_isBut rest (Session.conclude name ending)
        (Barrier.actsOn_conclude name ending session.now)
      exact ⟨next, bind_of_eq_some performed, but⟩
  | forget name =>
      cases named
      obtain ⟨next, performed, but⟩ := forget_isBut rest name
      exact ⟨next, bind_of_eq_some performed, but⟩
  | visit name age =>
      cases named
      obtain ⟨next, performed, but⟩ := visit_isBut rest age name
      exact ⟨next, bind_of_eq_some performed, but⟩
  | survey | evict _ => cases named

/-- A session at rest in which the clock has shown the end of every finished operation. -/
structure IsCalm (session : Session α ε) : Prop where
  rest : session.locks.IsAtRest
  timed : ∀ name, ∀ operation ∈ session.stored? name, operation.IsTimed

/-- A survey of a session names exactly the operations that are stored. -/
theorem mem_keys_iff {session : Session α ε} {name : String}
    : name ∈ session.barrier.operations.keys ↔ (session.stored? name).isSome :=
  (session.barrier.operations.isSome_get?_iff name).symm

/-- Of names that are all different, those that are one name. -/
theorem filter_eq_name {names : List String} (distinct : names.Nodup) (name : String)
    : names.filter (· = name) = if name ∈ names then [name] else [] := by
  rw [List.filter_eq, distinct.count]
  split <;> rfl

/-- What comes of an event for one name is all about that name. -/
theorem within_meet {event : Event α ε} {subject : String} (named : event.subject? = some subject)
    (name : String) (now : Seconds) (stored : Option (Operation α ε))
    : (event.meet subject now stored).1.within name = (event.meet subject now stored).1 := by
  cases event with
  | enter _ | conclude _ _ | forget _ | visit _ _ => rfl
  | survey | evict _ => cases named

/-- An eviction changes what is stored under each name as a visit would. -/
theorem IsCalm.evict {session : Session α ε} (calm : session.IsCalm) {now : Reading}
    (shown : session.now = now.time) (age : Seconds)
    : ∃ next,
        evict age session
          = some (.ok (session.barrier.operations.keys.filter fun name =>
              Operation.isGone age now.time (session.stored? name)), next)
        ∧ next.IsSwept session age session.barrier.operations.keys := by
  rw [← shown]
  refine evictAmong_isSwept calm.rest session.barrier.operations.distinct ?_
  intro name _ operation found
  rw [shown]
  exact (calm.timed name operation found).isDue age now

/-- After an eviction, every name has what remains of its operation. -/
theorem IsSwept.stored_eq {session next : Session α ε} {age : Seconds}
    (swept : next.IsSwept session age session.barrier.operations.keys) (name : String)
    : next.stored? name = (Operation.evicted age session.now (session.stored? name)).2 := by
  rw [swept.stored]
  split
  · rfl
  · next absent =>
      rw [mem_keys_iff, Option.not_isSome_iff_eq_none] at absent
      rw [absent]
      rfl

/-- What an event does from the point of view of a name. -/
structure Meets (event : Event α ε) (now : Seconds) (session : Session α ε)
    (outcome : Outcome α ε) (next : Session α ε) (name : String)
    : Prop where
  told : event.concerns name
    → outcome.within name = (event.meet name now (session.stored? name)).1
  stored : next.stored? name
    = if event.concerns name then (event.meet name now (session.stored? name)).2
      else session.stored? name
  locked : next.hasLock name
    = if event.concerns name then
        event.retains now (session.stored? name) (session.hasLock name)
      else session.hasLock name

/-- An event at a reading of the clock always has an outcome. What it says about a name, and what
is stored and locked under the name afterwards, depends on what was there before, if the event
concerns the name; if not, the name is left alone.
-/
theorem IsCalm.perform_meets {session : Session α ε} (calm : session.IsCalm) {now : Reading}
    (shown : session.now = now.time) (event : Event α ε)
    : ∃ outcome next, event.perform session = some (outcome, next)
        ∧ next.locks.IsAtRest
        ∧ ∀ name, Meets event now.time session outcome next name := by
  cases named : event.subject? with
  | some subject =>
      obtain ⟨next, performed, but⟩ := perform_isBut calm.rest named
      rw [shown] at performed but
      have concerned (name : String) : event.concerns name ↔ name = subject := by
        rw [Event.concerns, named, Option.all_some, decide_eq_true_eq]
        exact eq_comm
      refine ⟨_, next, performed, but.rest, fun name => ⟨?_, ?_, ?_⟩⟩
      · intro concerns
        rw [(concerned name).mp concerns]
        exact within_meet named subject now.time _
      · rw [but.stored]
        simp only [concerned]
        split
        · next same => rw [same]
        · rfl
      · rw [but.locked]
        simp only [concerned]
        split
        · next same => rw [same]
        · rfl
  | none =>
      have distinct : session.barrier.operations.keys.Nodup := session.barrier.operations.distinct
      cases event with
      | enter _ | conclude _ _ | forget _ | visit _ _ => cases named
      | survey =>
          refine ⟨_, session, rfl, calm.rest, fun name => ⟨fun _ => ?_, rfl, rfl⟩⟩
          rw [Event.meet, Outcome.within, filter_eq_name distinct]
          simp only [mem_keys_iff]
      | evict age =>
          obtain ⟨next, performed, swept⟩ := calm.evict shown age
          refine ⟨_, next, bind_of_eq_some performed, swept.rest, fun name => ⟨fun _ => ?_, ?_, ?_⟩⟩
          · have gone : name ∈ session.barrier.operations.keys.filter (fun name =>
                  Operation.isGone age now.time (session.stored? name))
                ↔ Operation.isGone age now.time (session.stored? name) := by
              rw [List.mem_filter, mem_keys_iff, Operation.isGone, Bool.and_eq_true]
              exact and_iff_right_of_imp And.left
            rw [Event.meet, Outcome.within, filter_eq_name (distinct.filter _)]
            simp only [gone]
          · rw [swept.stored_eq, shown]
            rfl
          · rw [swept.locked, shown]
            simp only [mem_keys_iff]
            rfl

/-- Whatever an event makes of an operation, its end is a reading of the clock. -/
theorem meet_isTimed {event : Event α ε} {name : String} {now : Reading}
    {stored : Option (Operation α ε)} (timed : ∀ operation ∈ stored, operation.IsTimed)
    : ∀ operation ∈ (event.meet name now.time stored).2, operation.IsTimed := by
  intro operation member
  cases event with
  | survey => exact timed operation member
  | enter contribution =>
      simp only [Event.meet, Contribution.meet] at member
      cases admits : contribution.admitTo now.time stored with
      | error refusal =>
          rw [admits] at member
          exact timed operation member
      | ok known =>
          rw [admits, Option.mem_some_iff] at member
          subst member
          intro verdict ended finished
          rcases known.phase_accept contribution now.time with same | running
          · rw [same] at finished
            rcases Contribution.admitTo_eq_ok admits with found | ⟨-, idle, -⟩
            · exact timed known found verdict ended finished
            · rw [idle] at finished
              cases finished
          · rw [running] at finished
            cases finished
  | conclude _ ending =>
      obtain ⟨known, found, rfl⟩ := Option.map_eq_some_iff.mp member
      intro verdict ended finished
      rw [Operation.ended] at finished
      split at finished
      · -- The operation was running, and its end is this reading.
        cases ending with
        | returned _ | raised _ =>
            cases finished
            exact now.isMeasured
        | interrupted => cases finished
      · exact timed known found verdict ended finished
  | forget other =>
      cases stored with
      | none => cases member
      | some known =>
          simp only [Event.meet, Operation.forgotten] at member
          split at member
          · exact timed operation member
          · cases member
  | visit _ age | evict age =>
      cases stored with
      | none => cases member
      | some known =>
          simp only [Event.meet, Operation.evicted] at member
          split at member
          · cases member
          · exact timed operation member
          · exact timed operation member

/-- A calm session stays calm, whatever event comes next and at whatever reading. -/
theorem IsCalm.after_event {session : Session α ε} (calm : session.IsCalm) (event : Event α ε)
    (now : Reading)
    : ∃ outcome next, event.perform { session with now := now.time } = some (outcome, next)
        ∧ next.IsCalm
        ∧ ∀ name, Meets event now.time session outcome next name := by
  have awake : IsCalm { session with now := now.time } := ⟨calm.rest, calm.timed⟩
  obtain ⟨outcome, next, performed, rest, meets⟩ := awake.perform_meets rfl event
  have same (name : String) : Meets event now.time session outcome next name :=
    ⟨(meets name).told, (meets name).stored, (meets name).locked⟩
  refine ⟨outcome, next, performed, ⟨rest, fun name operation found => ?_⟩, same⟩
  rw [(same name).stored] at found
  split at found
  · exact meet_isTimed (calm.timed name) operation found
  · exact calm.timed name operation found

/-- A history is performed event by event. -/
theorem performAll_cons {event : Event α ε} {now : Reading} {others : List (Event α ε × Reading)}
    {outcome : Outcome α ε} {reports : List (Event α ε × Outcome α ε)}
    {session middle next : Session α ε}
    (performed : event.perform { session with now := now.time } = some (outcome, middle))
    (goesOn : Event.performAll others middle = some (reports, next))
    : Event.performAll ((event, now) :: others) session
      = some ((event, outcome) :: reports, next) := by
  change (event.perform >>= fun outcome => Event.performAll others >>= fun reports =>
    pure ((event, outcome) :: reports)) { session with now := now.time } = _
  rw [bind_of_eq_some performed, bind_of_eq_some goesOn]
  rfl

theorem performAll_append (history others : List (Event α ε × Reading))
    : Event.performAll (history ++ others) = do
        let reports ← Event.performAll history
        let more ← Event.performAll others
        return reports ++ more := by
  induction history with
  | nil => simp [Event.performAll]
  | cons entry history ih => simp [Event.performAll, ih, bind_assoc]

/-- Histories are performed one after the other. -/
theorem performAll_append_eq_some {history others : List (Event α ε × Reading)}
    {reports more : List (Event α ε × Outcome α ε)} {session middle next : Session α ε}
    (performed : Event.performAll history session = some (reports, middle))
    (goesOn : Event.performAll others middle = some (more, next))
    : Event.performAll (history ++ others) session = some (reports ++ more, next) := by
  rw [performAll_append, bind_of_eq_some performed, bind_of_eq_some goesOn]
  rfl

/-- A new session is calm. -/
theorem isCalm_new : ({} : Session α ε).IsCalm where
  rest _ _ found := by cases found
  timed _ _ found := by cases found

end Session

end DiscVolume
