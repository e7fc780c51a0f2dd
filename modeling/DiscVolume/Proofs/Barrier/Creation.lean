import DiscVolume.Proofs.Barrier.Idle
import Mathlib.Data.List.Induction

/-! The order of operations. An event at most makes one operation, which comes behind all others;
the operations that stay keep their order. So the operations of a session stand in the order in which
the calls came that made them.
-/

namespace DiscVolume

namespace Session

-----------------------------------------------------------------------------------------
-- What one event does to the order
-----------------------------------------------------------------------------------------

/-- A request that keeps a session at rest, and of the operations keeps some in their order. -/
def Thins (request : Calling α ε β) : Prop :=
  ∀ ⦃session : Session α ε⦄, session.locks.IsAtRest
    → ∀ ⦃outcome next⦄, request session = some (outcome, next)
    → next.locks.IsAtRest
      ∧ next.barrier.operations.keys.Sublist session.barrier.operations.keys

namespace Thins

theorem pure (outcome : β) : Thins (pure outcome : Calling α ε β) := by
  intro session rest outcome next performed
  cases performed
  exact ⟨rest, .refl _⟩

theorem bind {request : Calling α ε β} {others : β → Calling α ε γ} (first : Thins request)
    (goesOn : ∀ outcome, Thins (others outcome))
    : Thins (request >>= others) := by
  intro session rest outcome next performed
  obtain ⟨⟨found, middle⟩, began, ended⟩ := Option.bind_eq_some_iff.mp performed
  obtain ⟨middleRest, kept⟩ := first rest began
  obtain ⟨nextRest, left⟩ := goesOn found middleRest ended
  exact ⟨nextRest, left.trans kept⟩

/-- A step with a lock held keeps the operations that it keeps in the barrier. -/
theorem holding (key : String) {step : Seconds → Barrier α ε → β × Barrier α ε}
    (keeps : ∀ now barrier, (step now barrier).2.operations.keys.Sublist barrier.operations.keys)
    : Thins (holding key step) := by
  intro session rest outcome next performed
  rw [holding_eq rest] at performed
  cases performed
  exact ⟨rest.provide key, keeps _ _⟩

theorem discard (key : String) : Thins (discard key : Calling α ε Unit) := by
  intro session rest outcome next performed
  cases performed
  exact ⟨rest.discard key, .refl _⟩

end Thins

end Session

namespace Ledger

theorem keys_drop_sublist (ledger : Ledger α) (key : String)
    : (ledger.drop key).keys.Sublist ledger.keys :=
  ledger.keys_drop key ▸ List.filter_sublist

/-- What is written under a key that is there keeps all keys in their places. -/
theorem keys_put_of_get? {ledger : Ledger α} {key : String} {value known : α}
    (found : ledger.get? key = some known)
    : (ledger.put key value).keys = ledger.keys := by
  rw [keys_put, if_pos]
  rw [← isSome_get?_iff, found]
  rfl

end Ledger

namespace Contribution

/-- Whether a contribution has a number of items to wait for. -/
def isValid (contribution : Contribution α) : Bool := 0 < contribution.howMany.getD 0

/-- Only valid contributions are admitted. -/
theorem isValid_of_admitTo {contribution : Contribution α} {now : Seconds}
    {stored : Option (Operation α ε)} {operation : Operation α ε}
    (admits : contribution.admitTo now stored = .ok operation)
    : contribution.isValid := by
  unfold admitTo at admits
  dsimp only at admits
  split at admits
  · cases admits
  · next positive => exact decide_eq_true (Int.not_le.mp positive)

end Contribution

namespace Barrier

variable {barrier : Barrier α ε}

theorem keys_conclude (name : String) (ending : Ending α ε) (now : Seconds)
    : (Session.conclude name ending now barrier).2.operations.keys = barrier.operations.keys := by
  have ended (phase : Phase α ε)
      : (barrier.endRun name phase).operations.keys = barrier.operations.keys := by
    rw [endRun]
    split
    · rfl
    · next operation found =>
        split
        · exact Ledger.keys_put_of_get? found
        · rfl
        · rfl
  cases ending <;> exact ended _

theorem keys_forgetting (name : String)
    : (forgetting name barrier).2.operations.keys.Sublist barrier.operations.keys := by
  rw [forgetting, forget]
  cases barrier.operations.get? name with
  | none => exact .refl _
  | some operation =>
      cases phase : operation.phase with
      | running _ => simpa only [phase] using List.Sublist.refl _
      | idle | finished _ _ =>
          simpa only [phase] using barrier.operations.keys_drop_sublist name

theorem keys_evict (name : String) (age now : Seconds)
    : (barrier.evict name age now).2.operations.keys.Sublist barrier.operations.keys := by
  rw [evict]
  split
  · exact .refl _
  · split
    · split
      · exact .refl _
      · split
        · exact .refl _
        · exact barrier.operations.keys_drop_sublist name
    · exact .refl _
    · exact .refl _

/-- A contribution makes at most the operation that it is for, and only if it is valid. -/
theorem keys_enter (contribution : Contribution α) (now : Seconds)
    : (barrier.enter contribution now).2.operations.keys = barrier.operations.keys
      ∨ contribution.isValid
        ∧ contribution.operation ∉ barrier.operations.keys
        ∧ (barrier.enter contribution now).2.operations.keys
          = barrier.operations.keys ++ [contribution.operation] := by
  rw [enter]
  cases admits : contribution.admitTo now (barrier.operations.get? contribution.operation) with
  | error refusal => exact .inl rfl
  | ok operation =>
      have written := barrier.operations.keys_put contribution.operation
        (operation.accept contribution now).2
      by_cases known : contribution.operation ∈ barrier.operations.keys
      · exact .inl (written.trans (if_pos known))
      · exact .inr ⟨contribution.isValid_of_admitTo admits, known, written.trans (if_neg known)⟩

end Barrier

namespace Session

variable {session next : Session α ε} {event : Event α ε} {outcome : Outcome α ε}

theorem thins_visit (age : Seconds) (name : String)
    : Thins (visit age name : Calling α ε (Except ClockFault Bool)) := by
  refine (Thins.holding name fun now barrier => barrier.keys_evict name age now).bind
    fun found => ?_
  cases found with
  | error fault => exact .pure _
  | ok isDue =>
      cases isDue with
      | false => exact .pure _
      | true => exact (Thins.discard name).bind fun _ => .pure _

/-- By induction on the names, with a visit for each. -/
theorem thins_evictAmong (age : Seconds) (names : List String)
    : Thins (evictAmong age names : Calling α ε (Except ClockFault (List String))) := by
  induction names with
  | nil => exact .pure _
  | cons name others ih =>
      rw [evictAmong_cons]
      refine (thins_visit age name).bind fun found => ?_
      cases found with
      | error fault => exact .pure _
      | ok isDue =>
          cases isDue with
          | false => exact ih
          | true => exact ih.bind fun _ => .pure _

theorem thins_forget (name : String)
    : Thins (forget name : Calling α ε (Except Refusal Bool)) := by
  refine (Thins.holding name fun _ barrier => barrier.keys_forgetting name).bind fun found => ?_
  cases found with
  | ok _ => exact (Thins.discard name).bind fun _ => .pure _
  | error _ => exact .pure _

/-- All events but contributions only thin the operations out. -/
theorem thins_perform (others : ∀ contribution, event ≠ .enter contribution)
    : Thins event.perform := by
  cases event with
  | enter contribution => exact absurd rfl (others contribution)
  | conclude name ending =>
      refine (Thins.holding name fun now barrier => ?_).bind fun _ => .pure _
      exact barrier.keys_conclude name ending now ▸ .refl _
  | forget name => exact (thins_forget name).bind fun _ => .pure _
  | survey =>
      intro session rest outcome next performed
      cases performed
      exact ⟨rest, .refl _⟩
  | visit name age => exact (thins_visit age name).bind fun _ => .pure _
  | evict age =>
      intro session rest
      exact (thins_evictAmong age session.barrier.operations.keys).bind (fun _ => .pure _) rest

/-- Where an event finds a session at rest, operations stay in their order, or one comes behind all
others, which a valid call makes.
-/
theorem keys_perform (rest : session.locks.IsAtRest)
    (performed : event.perform session = some (outcome, next))
    : next.barrier.operations.keys.Sublist session.barrier.operations.keys
      ∨ ∃ contribution, event = .enter contribution
        ∧ contribution.isValid
        ∧ contribution.operation ∉ session.barrier.operations.keys
        ∧ next.barrier.operations.keys
          = session.barrier.operations.keys ++ [contribution.operation] := by
  by_cases enters : ∃ contribution, event = .enter contribution
  · obtain ⟨contribution, rfl⟩ := enters
    obtain ⟨locks, journal, made, -⟩ := perform_enter rest contribution
    rw [made] at performed
    cases performed
    rcases session.barrier.keys_enter contribution session.now with same | ⟨valid, new, behind⟩
    · exact .inl (same ▸ .refl _)
    · exact .inr ⟨contribution, rfl, valid, new, behind⟩
  · exact .inl (thins_perform (fun contribution same => enters ⟨contribution, same⟩) rest
      performed).2

-----------------------------------------------------------------------------------------
-- The places of a history where operations are made
-----------------------------------------------------------------------------------------

theorem performTimed_append (history others : List (Event α ε × Seconds))
    : Event.performTimed (history ++ others) = do
        let reports ← Event.performTimed history
        let more ← Event.performTimed others
        return reports ++ more := by
  induction history with
  | nil => simp [Event.performTimed]
  | cons entry history ih => simp [Event.performTimed, ih, bind_assoc]

/-- A history is performed up to its last event, and then this event. -/
theorem performTimed_concat {history : List (Event α ε × Seconds)}
    {reports : List (Event α ε × Outcome α ε)} {start : Session α ε} {now : Seconds}
    (before : Event.performTimed history start = some (reports, session))
    (performed : event.perform { session with now } = some (outcome, next))
    : Event.performTimed (history ++ [(event, now)]) start
      = some (reports ++ [(event, outcome)], next) := by
  have last : Event.performTimed [(event, now)] session = some ([(event, outcome)], next) :=
    performTimed_cons_of_eq_some performed rfl
  rw [performTimed_append, bind_of_eq_some before, bind_of_eq_some last]
  rfl

/-- What is stored under a name after some first events of a history. -/
def storedAfter (history : List (Event α ε × Seconds)) (count : Nat) (name : String)
    : Option (Operation α ε) :=
  (Event.performTimed (history.take count) {}).bind fun result => result.2.stored? name

/-- The call at a place of a history made the operation of a name, which has been there since. -/
structure MadeAt (history : List (Event α ε × Seconds)) (name : String) (place : Nat) : Prop where
  made : ∃ contribution now, history[place]? = some (.enter contribution, now)
    ∧ contribution.operation = name
  absent : storedAfter history place name = none
  present : ∀ count, place < count → count ≤ history.length
    → (storedAfter history count name).isSome

/-- The operation of one name is older than that of another. -/
def MadeBefore (history : List (Event α ε × Seconds)) (first second : String) : Prop :=
  ∃ earlier later, MadeAt history first earlier ∧ MadeAt history second later ∧ earlier < later

variable {history : List (Event α ε × Seconds)} {entry : Event α ε × Seconds}

theorem storedAfter_length {reports : List (Event α ε × Outcome α ε)}
    (performed : Event.performTimed history {} = some (reports, session)) (name : String)
    : storedAfter history history.length name = session.stored? name := by
  rw [storedAfter, List.take_length, performed, Option.bind_some]

theorem storedAfter_concat {count : Nat} (inside : count ≤ history.length) (name : String)
    : storedAfter (history ++ [entry]) count name = storedAfter history count name := by
  rw [storedAfter, storedAfter, List.take_append_of_le_length inside]

/-- What is there at the end of a history is there after its last event. -/
theorem isSome_storedAfter_last {count : Nat} {name : String}
    {reports : List (Event α ε × Outcome α ε)}
    (performed : Event.performTimed (history ++ [entry]) {} = some (reports, next))
    (stays : (next.stored? name).isSome) (later : history.length < count)
    (within : count ≤ (history ++ [entry]).length)
    : (storedAfter (history ++ [entry]) count name).isSome := by
  obtain rfl : count = (history ++ [entry]).length := by
    rw [List.length_append, List.length_singleton] at within ⊢
    omega
  rw [storedAfter_length performed]
  exact stays

theorem MadeAt.place_lt {name : String} {place : Nat} (made : MadeAt history name place)
    : place < history.length := by
  obtain ⟨_, _, found, -⟩ := made.made
  exact (List.getElem?_eq_some_iff.mp found).1

/-- An operation that is still there after one more event is the one that was made before. -/
theorem MadeAt.concat {name : String} {place : Nat} (made : MadeAt history name place)
    {reports : List (Event α ε × Outcome α ε)}
    (performed : Event.performTimed (history ++ [entry]) {} = some (reports, next))
    (stays : (next.stored? name).isSome)
    : MadeAt (history ++ [entry]) name place := by
  obtain ⟨contribution, now, found, named⟩ := made.made
  have inside := made.place_lt
  refine ⟨⟨contribution, now, ?_, named⟩, ?_, fun count behind within => ?_⟩
  · rw [List.getElem?_append_left inside, found]
  · rw [storedAfter_concat (Nat.le_of_lt inside), made.absent]
  · by_cases earlier : count ≤ history.length
    · rw [storedAfter_concat earlier]
      exact made.present count behind earlier
    · exact isSome_storedAfter_last performed stays (Nat.lt_of_not_le earlier) within

/-- A call that finds no operation under its name and leaves one there has made it. -/
theorem madeAt_last {contribution : Contribution α} {now : Seconds}
    {reports more : List (Event α ε × Outcome α ε)}
    (before : Event.performTimed history {} = some (reports, session))
    (whole : Event.performTimed (history ++ [(.enter contribution, now)]) {} = some (more, next))
    (absent : session.stored? contribution.operation = none)
    (stored : (next.stored? contribution.operation).isSome)
    : MadeAt (history ++ [(.enter contribution, now)]) contribution.operation history.length where
  made := ⟨contribution, now, List.getElem?_concat_length, rfl⟩
  absent := by rw [storedAfter_concat (Nat.le_refl _), storedAfter_length before, absent]
  present _ := isSome_storedAfter_last whole stored

/-- The time makes no difference to what is stored and locked. -/
theorem IsAlike.at_time (alike : session.IsAlike session) (now : Seconds)
    : IsAlike { session with now } { session with now } :=
  ⟨alike.rest, alike.otherRest, alike.barrier, alike.sound⟩

/-- An event always has an outcome, and leaves a session at rest and sound. -/
theorem IsAlike.perform (alike : session.IsAlike session) (event : Event α ε) (now : Seconds)
    : ∃ outcome next, event.perform { session with now } = some (outcome, next)
        ∧ next.IsAlike next := by
  obtain ⟨outcome, next, other, performed, again, ended, -⟩ :=
    IsBlind.perform event (alike.at_time now) rfl
  rw [performed] at again
  cases again
  exact ⟨outcome, next, performed, ended⟩

/-- A session after a history: it is at rest and sound, and its operations are in the order in which
the calls came that made them.
-/
structure Chronicles (history : List (Event α ε × Seconds)) (session : Session α ε) : Prop where
  alike : session.IsAlike session
  made : ∀ name ∈ session.barrier.operations.keys, ∃ place, MadeAt history name place
  ordered : session.barrier.operations.keys.Pairwise (MadeBefore history)

/-- One more event leaves what is there in its order, or has its own operation made last. -/
theorem Chronicles.concat (chronicles : Chronicles history session)
    {reports : List (Event α ε × Outcome α ε)} {now : Seconds}
    (before : Event.performTimed history {} = some (reports, session))
    (performed : event.perform { session with now } = some (outcome, next))
    (alike : next.IsAlike next)
    : Chronicles (history ++ [(event, now)]) next := by
  have whole := performTimed_concat before performed
  have stays {name : String} (left : name ∈ next.barrier.operations.keys) {place : Nat}
      (made : MadeAt history name place) : MadeAt (history ++ [(event, now)]) name place :=
    made.concat whole (mem_keys_iff.mp left)
  have order {first second : String} (first_left : first ∈ next.barrier.operations.keys)
      (second_left : second ∈ next.barrier.operations.keys)
      (known : MadeBefore history first second)
      : MadeBefore (history ++ [(event, now)]) first second := by
    obtain ⟨earlier, later, madeFirst, madeSecond, less⟩ := known
    exact ⟨earlier, later, stays first_left madeFirst, stays second_left madeSecond, less⟩
  rcases keys_perform (chronicles.alike.at_time now).rest performed with
    thinned | ⟨contribution, rfl, -, new, behind⟩
  · refine ⟨alike, fun name left => ?_, ?_⟩
    · obtain ⟨place, made⟩ := chronicles.made name (thinned.subset left)
      exact ⟨place, stays left made⟩
    · exact (chronicles.ordered.sublist thinned).imp_of_mem order
  · -- The new operation is made by this event, so all others are older.
    have last : contribution.operation ∈ next.barrier.operations.keys := by simp [behind]
    have absent : session.stored? contribution.operation = none :=
      Option.not_isSome_iff_eq_none.mp fun found => new (mem_keys_iff.mpr found)
    have own : MadeAt (history ++ [(.enter contribution, now)]) contribution.operation
        history.length := madeAt_last before whole absent (mem_keys_iff.mp last)
    have kept {name : String} (known : name ∈ session.barrier.operations.keys)
        : name ∈ next.barrier.operations.keys := by
      rw [behind]
      exact List.mem_append_left _ known
    refine ⟨alike, fun name left => ?_, ?_⟩
    · rw [behind, List.mem_append, List.mem_singleton] at left
      rcases left with known | rfl
      · obtain ⟨place, made⟩ := chronicles.made name known
        exact ⟨place, stays (kept known) made⟩
      · exact ⟨history.length, own⟩
    · rw [behind, List.pairwise_append]
      refine ⟨chronicles.ordered.imp_of_mem fun known known' => order (kept known) (kept known'),
        List.pairwise_singleton _ _, fun first known second isLast => ?_⟩
      obtain rfl := List.mem_singleton.mp isLast
      obtain ⟨place, made⟩ := chronicles.made first known
      exact ⟨place, history.length, stays (kept known) made, own, made.place_lt⟩

/-- Every history is performed to its end, by induction on it from its last event. -/
theorem exists_performTimed (history : List (Event α ε × Seconds))
    : ∃ reports session, Event.performTimed history {} = some (reports, session)
        ∧ Chronicles history session := by
  induction history using List.reverseRecOn with
  | nil => exact ⟨[], {}, rfl, isAlike_new, fun _ none => (List.not_mem_nil none).elim, .nil⟩
  | append_singleton history entry ih =>
      obtain ⟨event, now⟩ := entry
      obtain ⟨reports, session, before, chronicles⟩ := ih
      obtain ⟨outcome, next, performed, alike⟩ := chronicles.alike.perform event now
      exact ⟨_, next, performTimed_concat before performed,
        chronicles.concat before performed alike⟩

end Session

end DiscVolume
