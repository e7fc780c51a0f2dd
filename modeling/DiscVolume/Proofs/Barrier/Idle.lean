import DiscVolume.Proofs.Barrier.Events
import DiscVolume.Proofs.Barrier.Nesting

/-! Calls that leave no trace. A call that is refused, comes too late, or is told what it could have
been told before changes no operation, so a history with some of these calls left out goes on as it
did with them. The locks do not take part in this: a refused call may leave one behind, and no
answer depends on it.
-/

namespace DiscVolume

/-- Whether an answer tells nothing new about the caller: it was not waited for, or its item had
been recorded before.
-/
def Response.isIdle (isRecorded : Bool) : Response α ε → Bool
  | .waiting => isRecorded
  | .failed _ | .running | .runTimeout | .collectionTimeout | .done _ => true

-----------------------------------------------------------------------------------------
-- One call
-----------------------------------------------------------------------------------------

namespace Operation

variable {operation : Operation α ε} {contribution : Contribution α} {now : Seconds}
variable {response : Response α ε}

/-- Whether an item has been recorded for an operation. -/
def hasItem (operation : Operation α ε) (item : String) : Bool :=
  (operation.items.get? item).isSome

theorem collect_of_hasItem {item : String} (recorded : operation.hasItem item) (value : α)
    : operation.collect item value = operation := by
  obtain ⟨known, found⟩ := Option.isSome_iff_exists.mp recorded
  rw [collect, found]

/-- Where all items are there, a caller who gets an answer changes nothing. -/
theorem proceed_of_answered {runTimeout : Seconds}
    (answered : (operation.proceed now runTimeout).1 = .answered response)
    : (operation.proceed now runTimeout).2 = operation := by
  unfold proceed at answered ⊢
  split
  · rfl
  · split <;> rfl
  · next idle =>
      rw [idle] at answered
      cases answered

/-- Where all items are there, a caller who finds an operation idle has to run it. -/
theorem not_answered_of_idle {runTimeout : Seconds} (idle : operation.phase = .idle)
    : (operation.proceed now runTimeout).1 ≠ .answered response := by
  rw [proceed, idle]
  simp

/-- A caller who gets an idle answer from an operation changes nothing in it. -/
theorem IsSound.accept_of_isIdle (sound : operation.IsSound)
    (answered : (operation.accept contribution now).1 = .answered response)
    (idle : response.isIdle (operation.hasItem contribution.item))
    : (operation.accept contribution now).2 = operation := by
  unfold accept at answered ⊢
  split
  · next complete =>
      rw [if_pos complete] at answered
      exact proceed_of_answered answered
  · next incomplete =>
      rw [if_neg incomplete] at answered
      split
      · rfl
      · rfl
      · next inTime =>
          simp only [inTime] at answered
          dsimp only
          split
          · next complete =>
              -- The item that was missing has just come, so the answer would be to run.
              rw [if_pos complete] at answered
              have begun := operation.phase_collect contribution.item contribution.value
              rw [sound.phase_eq_idle incomplete] at begun
              exact absurd answered (not_answered_of_idle begun)
          · next waits =>
              rw [if_neg waits] at answered
              cases answered
              exact collect_of_hasItem idle contribution.value

end Operation

/-- No limit that is not below zero is over at once. -/
theorem isOverdue_self {limit : Seconds} (forward : (0 : Seconds).exceeds limit = false)
    (now : Seconds)
    : isOverdue now now limit = .ok false := by
  obtain ⟨span, passed, nothing⟩ := now.minus_self
  rw [isOverdue]
  split
  · have short : span.exceeds limit = false := by
      rw [Seconds.exceeds] at forward ⊢
      rcases nothing with zero | undefined
      · rw [zero]
        exact forward
      · rw [undefined]
    rw [passed]
    exact congrArg Except.ok short
  · rfl

namespace Contribution

variable {contribution : Contribution α} {now : Seconds} {operation : Operation α ε}

/-- A new operation has been collecting since the call that it is made for. -/
theorem collectingSince_of_admitTo (admits : contribution.admitTo now none = .ok operation)
    : operation.collectingSince = now ∧ operation.phase = .idle := by
  unfold admitTo at admits
  dsimp only at admits
  split at admits
  · cases admits
  · cases admits
    exact ⟨rfl, rfl⟩

/-- The one who makes an operation is told to wait, unless the run falls to it. -/
theorem waits_of_admitTo (admits : contribution.admitTo now none = .ok operation)
    (forward : (0 : Seconds).exceeds contribution.collectionTimeout = false)
    {response : Response α ε}
    (answered : (operation.accept contribution now).1 = .answered response)
    : response = .waiting := by
  obtain ⟨started, idle⟩ := collectingSince_of_admitTo admits
  unfold Operation.accept at answered
  split at answered
  · exact absurd answered (Operation.not_answered_of_idle idle)
  · rw [started, isOverdue_self forward] at answered
    dsimp only at answered
    split at answered
    · rw [← operation.phase_collect contribution.item contribution.value] at idle
      exact absurd answered (Operation.not_answered_of_idle idle)
    · cases answered
      rfl

end Contribution

namespace Barrier

/-- All operations of a barrier are sound. -/
def HoldsSound (barrier : Barrier α ε) : Prop :=
  ∀ name operation, barrier.operations.get? name = some operation → operation.IsSound

/-- Whether an item has been recorded for the operation of a name. -/
def hasItem (barrier : Barrier α ε) (name item : String) : Bool :=
  (barrier.operations.get? name).any (·.hasItem item)

/-- A contribution that gets an idle answer leaves the barrier as it was. -/
theorem HoldsSound.enter_of_isIdle {barrier : Barrier α ε} (sound : barrier.HoldsSound)
    {contribution : Contribution α} {now : Seconds} {response : Response α ε}
    (forward : (0 : Seconds).exceeds contribution.collectionTimeout = false)
    (answered : (barrier.enter contribution now).1 = .answered response)
    (idle : response.isIdle (barrier.hasItem contribution.operation contribution.item))
    : (barrier.enter contribution now).2 = barrier := by
  unfold enter at answered ⊢
  cases found : barrier.operations.get? contribution.operation with
  | none =>
      rw [found] at answered
      cases admits : contribution.admitTo now (none : Option (Operation α ε)) with
      | error refusal => rfl
      | ok operation =>
          rw [admits] at answered
          rw [hasItem, found] at idle
          obtain rfl := Contribution.waits_of_admitTo admits forward answered
          cases idle
  | some known =>
      rw [found] at answered
      cases admits : contribution.admitTo now (some known) with
      | error refusal => rfl
      | ok operation =>
          rw [admits] at answered
          rw [hasItem, found] at idle
          rcases Contribution.admitTo_eq_ok admits with same | ⟨absent, -⟩
          · cases same
            dsimp only at answered ⊢
            rw [(sound _ _ found).accept_of_isIdle answered idle, Ledger.put_of_get? found]
          · cases absent

end Barrier

-----------------------------------------------------------------------------------------
-- Soundness, step by step
-----------------------------------------------------------------------------------------

namespace Operation

variable {operation next : Operation α ε}

/-- What an operation becomes by a contribution is sound. -/
theorem Advance.isSound {turn : Turn α ε} (advance : operation.Advance turn next)
    : next.IsSound := by
  cases advance with
  | stays _ sound _ _ => exact sound
  | starts _ _ full => exact ⟨Nat.le_of_eq full, fun _ => full⟩

theorem IsSound.accept (sound : operation.IsSound) (contribution : Contribution α) (now : Seconds)
    : (operation.accept contribution now).2.IsSound := by
  obtain ⟨turn, next, accepted, advance⟩ := sound.advance_accept contribution now
  rw [accepted]
  exact advance.isSound

/-- Only what is running ends, and it has all its items. -/
theorem IsSound.ended (sound : operation.IsSound) (phase : Phase α ε)
    : (operation.ended phase).IsSound := by
  unfold Operation.ended
  split
  · next running =>
      exact ⟨sound.size_le, fun _ => sound.full (Phase.ne_idle_of_isRunning running)⟩
  · exact sound

end Operation

namespace Barrier

variable {barrier : Barrier α ε} {name : String}

/-- A step on one operation keeps a barrier sound if it makes a sound operation of a sound one. -/
theorem ActsOn.holdsSound {step : Barrier α ε → β × Barrier α ε}
    {act : Option (Operation α ε) → β × Option (Operation α ε)} (acts : ActsOn name step act)
    (keeps : ∀ stored, (∀ known ∈ stored, known.IsSound) → ∀ next ∈ (act stored).2, next.IsSound)
    (sound : barrier.HoldsSound)
    : (step barrier).2.HoldsSound := by
  obtain ⟨-, but⟩ := acts barrier
  intro other operation found
  rw [but other] at found
  split at found
  · exact keeps _ (sound name) operation found
  · exact sound other operation found

theorem HoldsSound.enter (sound : barrier.HoldsSound) (contribution : Contribution α)
    (now : Seconds)
    : (barrier.enter contribution now).2.HoldsSound := by
  refine (actsOn_enter contribution now).holdsSound (fun stored known next member => ?_) sound
  simp only [Contribution.meet] at member
  split at member
  · exact known next member
  · next operation admits =>
      cases member
      exact (Contribution.isSound_of_admitTo known admits).accept contribution now

theorem HoldsSound.conclude (sound : barrier.HoldsSound) (name : String) (ending : Ending α ε)
    (now : Seconds)
    : (Session.conclude name ending now barrier).2.HoldsSound := by
  refine (actsOn_conclude name ending now).holdsSound (fun stored known next member => ?_) sound
  obtain ⟨operation, found, rfl⟩ := Option.map_eq_some_iff.mp member
  exact (known operation found).ended _

/-- What remains after a request to forget is what was stored, or nothing. -/
theorem HoldsSound.forgetting (sound : barrier.HoldsSound) (name : String)
    : (Barrier.forgetting name barrier).2.HoldsSound := by
  refine (actsOn_forgetting name).holdsSound (fun stored known next member => ?_) sound
  cases stored with
  | none => cases member
  | some operation =>
      rw [Operation.forgotten] at member
      split at member
      · exact known next member
      · cases member

theorem HoldsSound.evict (sound : barrier.HoldsSound) (name : String) (age now : Seconds)
    : (barrier.evict name age now).2.HoldsSound := by
  refine (actsOn_evict name age now).holdsSound (fun stored known next member => ?_) sound
  cases stored with
  | none => cases member
  | some operation =>
      rw [Operation.evicted] at member
      split at member
      · cases member
      · exact known next member
      · exact known next member

end Barrier

-----------------------------------------------------------------------------------------
-- Sessions that differ in their locks
-----------------------------------------------------------------------------------------

namespace Session

/-- Two sessions at rest with the same operations, which are sound. -/
structure IsAlike (session other : Session α ε) : Prop where
  rest : session.locks.IsAtRest
  otherRest : other.locks.IsAtRest
  barrier : other.barrier = session.barrier
  sound : session.barrier.HoldsSound

/-- A request that has the same outcome at the same time in sessions that are alike, and leaves them
alike.
-/
def IsBlind (request : Calling α ε β) : Prop :=
  ∀ ⦃session other : Session α ε⦄, session.IsAlike other → other.now = session.now
    → ∃ outcome next final, request session = some (outcome, next)
        ∧ request other = some (outcome, final)
        ∧ next.IsAlike final
        ∧ final.now = next.now

namespace IsBlind

variable {request : Calling α ε β}

theorem pure (outcome : β) : IsBlind (pure outcome : Calling α ε β) :=
  fun session other alike time => ⟨outcome, session, other, rfl, rfl, alike, time⟩

theorem bind {others : β → Calling α ε γ} (first : IsBlind request)
    (rest : ∀ outcome, IsBlind (others outcome))
    : IsBlind (request >>= others) := by
  intro session other alike time
  obtain ⟨outcome, next, final, performed, again, middle, later⟩ := first alike time
  obtain ⟨answer, last, lastOther, goesOn, goesOnAgain, ended⟩ := rest outcome middle later
  exact ⟨answer, last, lastOther, (bind_of_eq_some performed).trans goesOn,
    (bind_of_eq_some again).trans goesOnAgain, ended⟩

/-- A step that is taken with a lock held does not depend on the other locks. -/
theorem holding (key : String) {step : Seconds → Barrier α ε → β × Barrier α ε}
    (keeps : ∀ now barrier, barrier.HoldsSound → (step now barrier).2.HoldsSound)
    : IsBlind (holding key step) := by
  intro session other alike time
  have again := holding_eq alike.otherRest key step
  rw [alike.barrier, time] at again
  refine ⟨_, _, _, holding_eq alike.rest key step, again, ?_, rfl⟩
  exact {
    rest := alike.rest.provide key
    otherRest := alike.otherRest.provide key
    barrier := rfl
    sound := keeps _ _ alike.sound
  }

theorem discard (key : String) : IsBlind (discard key : Calling α ε Unit) := by
  intro session other alike time
  refine ⟨(), _, _, rfl, rfl, ?_, time⟩
  exact {
    rest := alike.rest.discard key
    otherRest := alike.otherRest.discard key
    barrier := alike.barrier
    sound := alike.sound
  }

/-- A request that depends on which operations are stored. -/
theorem inspect (others : Barrier α ε → Calling α ε β)
    (rest : ∀ barrier, IsBlind (others barrier))
    : IsBlind (do others (← get).barrier) := by
  intro session other alike time
  obtain ⟨outcome, next, final, performed, again, ended⟩ := rest session.barrier alike time
  refine ⟨outcome, next, final, performed, ?_, ended⟩
  rw [← alike.barrier] at again
  exact again

theorem visit (age : Seconds) (name : String)
    : IsBlind (visit age name : Calling α ε (Except ClockFault Bool)) := by
  refine (holding name fun now barrier sound => sound.evict name age now).bind fun outcome => ?_
  cases outcome with
  | error fault => exact pure _
  | ok isDue =>
      cases isDue with
      | false => exact pure _
      | true => exact (discard name).bind fun _ => pure _

/-- By induction on the names, with a visit for each. -/
theorem evictAmong (age : Seconds) (names : List String)
    : IsBlind (evictAmong age names : Calling α ε (Except ClockFault (List String))) := by
  induction names with
  | nil => exact pure _
  | cons name others ih =>
      rw [evictAmong_cons]
      refine (visit age name).bind fun outcome => ?_
      cases outcome with
      | error fault => exact pure _
      | ok isDue =>
          cases isDue with
          | false => exact ih
          | true => exact ih.bind fun _ => pure _

theorem evict (age : Seconds)
    : IsBlind (evict age : Calling α ε (Except ClockFault (List String))) :=
  inspect (fun barrier => Session.evictAmong age barrier.operations.keys)
    fun _ => evictAmong age _

theorem forget (name : String)
    : IsBlind (forget name : Calling α ε (Except Refusal Bool)) := by
  refine bind (holding name fun _ _ sound => sound.forgetting name) fun outcome => ?_
  cases outcome with
  | ok _ => exact (discard name).bind fun _ => pure _
  | error _ => exact pure _

/-- Whatever an event is, the locks that earlier calls left behind do not show in it. -/
theorem perform (event : Event α ε) : IsBlind event.perform := by
  cases event with
  | enter contribution =>
      exact bind (holding _ fun now _ sound => sound.enter contribution now) fun _ => pure _
  | conclude name ending =>
      exact bind (holding _ fun now _ sound => sound.conclude name ending now) fun _ => pure _
  | forget name => exact (forget name).bind fun _ => pure _
  | survey =>
      exact inspect (fun barrier => Pure.pure (Outcome.surveyed barrier.operations.keys))
        fun _ => pure _
  | visit name age => exact (visit age name).bind fun _ => pure _
  | evict age => exact (evict age).bind fun _ => pure _

end IsBlind

-----------------------------------------------------------------------------------------
-- Histories
-----------------------------------------------------------------------------------------

/-- Performs events one after the other, each at a time of its own. -/
def Event.performTimed
    : List (Event α ε × Seconds) → Calling α ε (List (Event α ε × Outcome α ε))
  | [] => pure []
  | (event, now) :: others => do
      modify fun session => { session with now }
      let outcome ← event.perform
      let reports ← performTimed others
      return (event, outcome) :: reports

/-- (omitting places items) leaves out the items at some places. -/
def omitting (places : Nat → Bool) : List β → List β
  | [] => []
  | item :: others =>
      let rest := omitting (fun place => places (place + 1)) others
      if places 0 then rest else item :: rest

/-- Whether an event is a call that gets an idle answer from a session. -/
def isIdleCall (session : Session α ε) (event : Event α ε) (now : Seconds) : Bool :=
  match event, event.perform { session with now } with
  | .enter contribution, some (.turned (.answered response), _) =>
      response.isIdle (session.barrier.hasItem contribution.operation contribution.item)
  | _, _ => false

/-- Whether the event at a place of a history is a call that gets an idle answer, where the history
is performed from a session on.
-/
def isIdleAt (session : Session α ε) (history : List (Event α ε × Seconds)) (place : Nat) : Bool :=
  match history[place]?, Event.performTimed (history.take place) session with
  | some (event, now), some (_, reached) => reached.isIdleCall event now
  | _, _ => false

section

variable {event : Event α ε} {now : Seconds} {others : List (Event α ε × Seconds)}
variable {outcome : Outcome α ε} {session middle : Session α ε}

/-- A history goes on from the session that its first event leaves. -/
theorem performTimed_cons
    (performed : event.perform { session with now } = some (outcome, middle))
    : Event.performTimed ((event, now) :: others) session
      = (Event.performTimed others middle).map
          fun result => ((event, outcome) :: result.1, result.2) := by
  change (event.perform >>= fun outcome => Event.performTimed others >>= fun reports =>
    pure ((event, outcome) :: reports)) { session with now } = _
  rw [bind_of_eq_some performed]
  change (Event.performTimed others middle).bind _ = _
  cases Event.performTimed others middle <;> rfl

theorem performTimed_cons_of_eq_some {reports : List (Event α ε × Outcome α ε)}
    {next : Session α ε} (performed : event.perform { session with now } = some (outcome, middle))
    (goesOn : Event.performTimed others middle = some (reports, next))
    : Event.performTimed ((event, now) :: others) session
      = some ((event, outcome) :: reports, next) := by
  rw [performTimed_cons performed, goesOn, Option.map_some]

/-- What is idle behind the first event is idle from the session that this event leaves. -/
theorem isIdleAt_succ (performed : event.perform { session with now } = some (outcome, middle))
    (place : Nat)
    : session.isIdleAt ((event, now) :: others) (place + 1) = middle.isIdleAt others place := by
  rw [isIdleAt, isIdleAt, List.getElem?_cons_succ, List.take_succ_cons,
    performTimed_cons performed]
  cases others[place]? <;> cases Event.performTimed (others.take place) middle <;> rfl

end

variable {session other : Session α ε}

/-- A contribution is made in one step. -/
theorem perform_enter (rest : session.locks.IsAtRest) (contribution : Contribution α)
    : ∃ locks journal,
        (Event.enter contribution).perform session
          = some (.turned (session.barrier.enter contribution session.now).1,
              { session with
                barrier := (session.barrier.enter contribution session.now).2, locks, journal })
        ∧ locks.IsAtRest :=
  ⟨_, _, bind_of_eq_some (holding_eq rest contribution.operation _), rest.provide _⟩

/-- An idle call leaves a session alike to those that it was alike to. -/
theorem IsAlike.after_idle (alike : session.IsAlike other) {event : Event α ε} {now : Seconds}
    (forward : ∀ contribution, event = .enter contribution
      → (0 : Seconds).exceeds contribution.collectionTimeout = false)
    (idle : session.isIdleCall event now)
    : ∃ outcome next, event.perform { session with now } = some (outcome, next)
        ∧ next.IsAlike other := by
  unfold isIdleCall at idle
  split at idle
  · next contribution response next performed =>
      have before : ({ session with now } : Session α ε).locks.IsAtRest := alike.rest
      obtain ⟨locks, journal, made, rest⟩ := perform_enter before contribution
      refine ⟨_, _, made, ?_⟩
      rw [made] at performed
      have answered := congrArg Prod.fst (Option.some.inj performed)
      have same := alike.sound.enter_of_isIdle (forward contribution rfl)
        (Outcome.turned.inj answered) idle
      exact {
        rest
        otherRest := alike.otherRest
        barrier := by rw [same, alike.barrier]
        sound := by rw [same]; exact alike.sound
      }
  · cases idle

/-- From sessions that are alike, a history is performed in the one as it is in the other without
some of its idle calls. By induction on the history.
-/
theorem IsAlike.performTimed (alike : session.IsAlike other)
    {history : List (Event α ε × Seconds)} {places : Nat → Bool}
    (forward : ∀ contribution now, (.enter contribution, now) ∈ history
      → (0 : Seconds).exceeds contribution.collectionTimeout = false)
    (idle : ∀ place, places place = true → session.isIdleAt history place = true)
    : ∃ reports next others final,
        Event.performTimed history session = some (reports, next)
        ∧ Event.performTimed (omitting places history) other = some (others, final)
        ∧ others = omitting places reports
        ∧ final.barrier = next.barrier := by
  induction history generalizing session other places with
  | nil => exact ⟨[], session, [], other, rfl, rfl, rfl, alike.barrier⟩
  | cons entry history ih =>
      obtain ⟨event, now⟩ := entry
      have later (contribution : Contribution α) (time : Seconds)
          (member : (.enter contribution, time) ∈ history) :=
        forward contribution time (List.mem_cons_of_mem _ member)
      -- What is said of the places behind the first holds of the session that the first leaves.
      have behind {outcome : Outcome α ε} {middle : Session α ε}
          (performed : event.perform { session with now } = some (outcome, middle)) (place : Nat)
          (omitted : places (place + 1) = true)
          : middle.isIdleAt history place = true := by
        rw [← isIdleAt_succ performed]
        exact idle (place + 1) omitted
      rw [omitting]
      cases omitted : places 0 with
      | true =>
          obtain ⟨outcome, middle, performed, kept⟩ := alike.after_idle
            (fun contribution same => forward contribution now (by rw [same]; exact .head _))
            (idle 0 omitted)
          obtain ⟨reports, next, others, final, goesOn, again, told, same⟩ :=
            ih kept later (behind performed)
          refine ⟨_, next, others, final, performTimed_cons_of_eq_some performed goesOn, again, ?_,
            same⟩
          rw [omitting, omitted]
          exact told
      | false =>
          have started : IsAlike { session with now } { other with now } :=
            ⟨alike.rest, alike.otherRest, alike.barrier, alike.sound⟩
          obtain ⟨outcome, middle, middleOther, performed, performedAgain, kept, -⟩ :=
            IsBlind.perform event started rfl
          obtain ⟨reports, next, others, final, goesOn, again, told, same⟩ :=
            ih kept later (behind performed)
          refine ⟨_, next, _, final, performTimed_cons_of_eq_some performed goesOn,
            performTimed_cons_of_eq_some performedAgain again, ?_, same⟩
          rw [omitting, omitted, told]
          rfl

/-- A new session has no operations. -/
theorem isAlike_new : IsAlike ({} : Session α ε) {} where
  rest _ _ found := by cases found
  otherRest _ _ found := by cases found
  barrier := rfl
  sound _ _ found := by cases found

/-- From a history of requests, with runs in progress between them, any set of the calls may be left
out that were refused, came too late, were told of a run that was in progress or had ended, or
brought an item that had been recorded: all other requests have the results that they had, and in
the end the same operations are stored. No call may limit its collection by a time below zero.
-/
theorem idle_calls_traceless (history : List (Event α ε × Seconds)) (places : Nat → Bool)
    (forward : ∀ contribution now, (.enter contribution, now) ∈ history
      → (0 : Seconds).exceeds contribution.collectionTimeout = false)
    (idle : ∀ place, places place = true → isIdleAt {} history place = true)
    : ∃ reports session others final,
        Event.performTimed history {} = some (reports, session)
        ∧ Event.performTimed (omitting places history) {} = some (others, final)
        ∧ others = omitting places reports
        ∧ final.barrier = session.barrier :=
  isAlike_new.performTimed forward idle

/-- Idle answers of every kind are left out of a history in which an operation collects, runs, is
replayed and is evicted.
-/
theorem idle_calls_traceless_around_run
    : let enter (operation item : String) (howMany : Int) (limit run : Seconds) : Event Nat Nat :=
        .enter {
          operation, item, howMany := some howMany, value := 7, client := 0
          collectionTimeout := limit, runTimeout := run }
      let history : List (Event Nat Nat × Seconds) := [
        (enter "g" "a" 2 5 0, 1), (enter "g" "a" 2 5 0, 2), (enter "g" "b" 3 5 0, 3),
        (enter "g" "c" 2 5 0, 9), (enter "g" "b" 2 5 0, 4), (enter "g" "a" 2 5 0, 10),
        (enter "g" "a" 2 5 3, 20), (.forget "g", 20), (.conclude "g" (.returned 5), 21),
        (enter "g" "a" 2 5 0, 22), (enter "h" "x" 0 0 0, 23), (.evict 1, 30)]
      let places (place : Nat) : Bool := [1, 2, 3, 5, 6, 9, 10].contains place
      (∀ contribution now, (.enter contribution, now) ∈ history
        → (0 : Seconds).exceeds contribution.collectionTimeout = false)
      ∧ (∀ place, places place = true → isIdleAt {} history place = true)
      ∧ ∃ reports session others final,
          Event.performTimed history {} = some (reports, session)
          ∧ Event.performTimed (omitting places history) {} = some (others, final)
          ∧ others = omitting places reports
          ∧ others.length = 5
          ∧ final.barrier = session.barrier := by
  intro enter history places
  have forward : ∀ contribution now, (.enter contribution, now) ∈ history
      → (0 : Seconds).exceeds contribution.collectionTimeout = false := by
    have all : history.all (fun entry => match entry.1 with
        | .enter contribution => !(0 : Seconds).exceeds contribution.collectionTimeout
        | _ => true) := by decide +kernel
    intro contribution now found
    simpa using List.all_eq_true.mp all _ found
  have idle : ∀ place, places place = true → isIdleAt {} history place = true := by
    have all : [1, 2, 3, 5, 6, 9, 10].all (fun place => isIdleAt {} history place) := by
      decide +kernel
    intro place omitted
    exact List.all_eq_true.mp all place (List.contains_iff_mem.mp omitted)
  obtain ⟨reports, session, others, final, performed, again, told, same⟩ :=
    idle_calls_traceless history places forward idle
  have length : (Event.performTimed (omitting places history) {}).map
      (fun result => result.1.length) = some 5 := by decide +kernel
  rw [again] at length
  exact ⟨forward, idle, reports, session, others, final, performed, again, told,
    Option.some.inj length, same⟩

end Session

end DiscVolume
