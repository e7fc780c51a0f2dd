import DiscVolume.Barrier.Call
import DiscVolume.Proofs.Barrier.Events
import Mathlib.Data.List.Induction

/-! What is left in the lock table. Every stored operation has a lock, and both go together when
the operation is forgotten or evicted. But a lock is made for every name that is asked for, and
some requests that find no operation there do not remove it: a contribution that is turned down,
and a visit of an eviction to an operation that has been removed since the eviction began. These
locks stay until the name is forgotten, and nothing else leaves a lock without an operation.
-/

namespace DiscVolume

/-- Nothing is stored after a contribution just if nothing was and it has no number of items to
wait for.
-/
theorem Contribution.meet_eq_none_iff {contribution : Contribution α} {now : Seconds}
    {stored : Option (Operation α ε)}
    : (contribution.meet now stored).2 = none
      ↔ stored = none ∧ contribution.howMany.getD 0 ≤ 0 := by
  cases stored with
  | none =>
      by_cases given : contribution.howMany.getD 0 ≤ 0
      · simp [meet, admitTo, given, throw, throwThe, MonadExceptOf.throw]
      · simp [meet, admitTo, given, pure, Except.pure]
  | some operation =>
      refine iff_of_false ?_ (fun absent => by cases absent.1)
      rw [meet]
      cases contribution.admitTo now (some operation) with
      | error refusal => exact Option.some_ne_none _
      | ok known => exact Option.some_ne_none _

namespace Session

namespace Event

/-- Whether an event finds nothing stored under a name and leaves it at that, without looking after
the lock of the name. The end of a run never does, since its operation is not removed before.
-/
def misses (name : String) (stored : Option (Operation α ε)) : Event α ε → Prop
  | enter contribution =>
      contribution.operation = name ∧ stored = none ∧ contribution.howMany.getD 0 ≤ 0
  | conclude other _ | visit other _ => other = name ∧ stored = none
  | forget _ | survey | evict _ => False

variable {event : Event α ε} {name : String} {stored : Option (Operation α ε)} {now : Seconds}
  {isLocked : Bool}

/-- A name under which something is stored after an event has a lock, if that was so before. -/
theorem retains_of_remains (owned : stored.isSome → isLocked)
    (remains : (event.meet name now stored).2.isSome)
    : event.retains now stored isLocked := by
  have stays (age : Seconds) (left : (Operation.evicted age now stored).2.isSome)
      : (!Operation.isGone age now stored) = true := by
    rw [Operation.isGone, Option.isNone_eq_false_iff.mpr left, Bool.and_false]
    rfl
  cases event with
  | enter _ | conclude _ _ => rfl
  | forget _ => exact remains
  | survey => exact owned remains
  | visit _ age => exact stays age remains
  | evict age =>
      rw [retains]
      split
      · exact stays age remains
      · next absent =>
          rw [Option.not_isSome_iff_eq_none.mp absent] at remains
          cases remains

/-- An event that leaves a lock without an operation has missed the operation, or the lock had none
before.
-/
theorem misses_of_retains (concerned : event.concerns name)
    (retained : event.retains now stored isLocked) (empty : (event.meet name now stored).2 = none)
    : event.misses name stored ∨ isLocked ∧ stored = none := by
  have gone (age : Seconds) (left : (Operation.evicted age now stored).2 = none)
      (stays : (!Operation.isGone age now stored) = true)
      : stored = none := by
    rw [Operation.isGone, left, Option.isNone_none, Bool.and_true, Bool.not_eq_true',
      Option.isSome_eq_false_iff, Option.isNone_iff_eq_none] at stays
    exact stays
  rw [concerns] at concerned
  cases event with
  | enter contribution =>
      simp only [subject?, Option.all_some, decide_eq_true_eq] at concerned
      exact Or.inl ⟨concerned, Contribution.meet_eq_none_iff.mp empty⟩
  | conclude other ending =>
      simp only [subject?, Option.all_some, decide_eq_true_eq] at concerned
      exact Or.inl ⟨concerned, Option.map_eq_none_iff.mp empty⟩
  | visit other age =>
      simp only [subject?, Option.all_some, decide_eq_true_eq] at concerned
      exact Or.inl ⟨concerned, gone age empty retained⟩
  | forget other =>
      rw [retains] at retained
      rw [meet] at empty
      rw [empty] at retained
      cases retained
  | survey => exact Or.inr ⟨retained, empty⟩
  | evict age =>
      rw [retains] at retained
      split at retained
      · next present =>
          rw [gone age empty retained] at present
          cases present
      · next absent => exact Or.inr ⟨retained, Option.not_isSome_iff_eq_none.mp absent⟩

/-- An event that misses an operation leaves a lock and no operation. -/
theorem retains_of_misses (misses : event.misses name stored) (now : Seconds) (isLocked : Bool)
    : event.concerns name
      ∧ event.retains now stored isLocked
      ∧ (event.meet name now stored).2 = none := by
  cases event with
  | enter contribution =>
      obtain ⟨named, absent⟩ := misses
      exact ⟨decide_eq_true named, rfl, Contribution.meet_eq_none_iff.mpr absent⟩
  | conclude other ending =>
      obtain ⟨named, rfl⟩ := misses
      exact ⟨decide_eq_true named, rfl, rfl⟩
  | visit other age =>
      obtain ⟨named, rfl⟩ := misses
      exact ⟨decide_eq_true named, rfl, rfl⟩
  | forget _ | survey | evict _ => cases misses

/-- An event for another name, or for all, leaves a lock without an operation where it is. -/
theorem retains_of_subject? (apart : event.subject? ≠ some name) (concerned : event.concerns name)
    (now : Seconds) (isLocked : Bool)
    : event.retains now (none : Option (Operation α ε)) isLocked = isLocked
      ∧ (event.meet name now (none : Option (Operation α ε))).2 = none := by
  cases event with
  | survey | evict _ => exact ⟨rfl, rfl⟩
  | enter _ | conclude _ _ | forget _ | visit _ _ =>
      rw [concerns, subject?, Option.all_some, decide_eq_true_eq] at concerned
      exact absurd (congrArg some concerned) apart

end Event

/-- Whether some event of a history has missed an operation that it looked for under a name. -/
def HasMissed (history : List (Event α ε × Reading)) (name : String) : Prop :=
  ∃ before event now after reports earlier, history = before ++ (event, now) :: after
    ∧ Event.performAll before {} = some (reports, earlier)
    ∧ event.misses name (earlier.stored? name)

/-- What is stored and locked after a history. -/
structure Bonds (history : List (Event α ε × Reading)) (session : Session α ε) : Prop where
  owned : ∀ name, (session.stored? name).isSome → session.hasLock name
  spare : ∀ name, session.hasLock name → session.stored? name = none → HasMissed history name

theorem bonds_new : Bonds [] ({} : Session α ε) where
  owned _ found := by cases found
  spare _ found := by cases found

theorem HasMissed.concat {history : List (Event α ε × Reading)} {name : String}
    (missed : HasMissed history name) (entry : Event α ε × Reading)
    : HasMissed (history ++ [entry]) name := by
  obtain ⟨before, event, now, after, reports, earlier, rfl, performed, misses⟩ := missed
  exact ⟨before, event, now, after ++ [entry], reports, earlier, by simp, performed, misses⟩

/-- Only an event that misses an operation adds a lock without one. -/
theorem Bonds.concat {history : List (Event α ε × Reading)} {session next : Session α ε}
    (bonds : Bonds history session) {reports : List (Event α ε × Outcome α ε)}
    (performed : Event.performAll history {} = some (reports, session)) {event : Event α ε}
    {now : Reading} {outcome : Outcome α ε}
    (meets : ∀ name, Meets event now.time session outcome next name)
    : Bonds (history ++ [(event, now)]) next where
  owned name found := by
    have stored := (meets name).stored
    have locked := (meets name).locked
    split at stored
    · next concerned =>
        rw [if_pos concerned] at locked
        rw [locked]
        rw [stored] at found
        exact Event.retains_of_remains (bonds.owned name) found
    · next apart =>
        rw [if_neg apart] at locked
        rw [locked]
        rw [stored] at found
        exact bonds.owned name found
  spare name found empty := by
    have stored := (meets name).stored
    have locked := (meets name).locked
    split at stored
    · next concerned =>
        rw [if_pos concerned] at locked
        rw [locked] at found
        rw [stored] at empty
        rcases Event.misses_of_retains concerned found empty with misses | ⟨had, none⟩
        · exact ⟨history, event, now, [], reports, session, rfl, performed, misses⟩
        · -- The event only leaves the lock where it was, so some earlier event has missed.
          exact (bonds.spare name had none).concat _
    · next apart =>
        rw [if_neg apart] at locked
        rw [locked] at found
        rw [stored] at empty
        exact (bonds.spare name found empty).concat _

/-- Every history is performed to its end, and only missed operations leave locks. -/
theorem exists_performAll (history : List (Event α ε × Reading))
    : ∃ reports session, Event.performAll history {} = some (reports, session)
        ∧ session.IsCalm
        ∧ Bonds history session := by
  induction history using List.reverseRecOn with
  | nil => exact ⟨[], {}, rfl, isCalm_new, bonds_new⟩
  | append_singleton history entry ih =>
      obtain ⟨event, now⟩ := entry
      obtain ⟨reports, session, performed, calm, bonds⟩ := ih
      obtain ⟨outcome, next, goesOn, kept, meets⟩ := calm.after_event event now
      have once : Event.performAll [(event, now)] session = some ([(event, outcome)], next) :=
        performAll_cons goesOn rfl
      exact ⟨_, next, performAll_append_eq_some performed once, kept, bonds.concat performed meets⟩

/-- A lock without an operation stays one until the next event for its name. -/
theorem IsCalm.spare_performAll {session : Session α ε} (calm : session.IsCalm) {name : String}
    (locked : session.hasLock name) (empty : session.stored? name = none)
    (history : List (Event α ε × Reading))
    (apart : ∀ entry ∈ history, entry.1.subject? ≠ some name)
    : ∃ reports next, Event.performAll history session = some (reports, next)
        ∧ next.hasLock name
        ∧ next.stored? name = none := by
  induction history generalizing session with
  | nil => exact ⟨[], session, rfl, locked, empty⟩
  | cons entry history ih =>
      obtain ⟨event, now⟩ := entry
      obtain ⟨outcome, middle, performed, kept, meets⟩ := calm.after_event event now
      have others := fun entry member => apart entry (List.mem_cons_of_mem _ member)
      have stored := (meets name).stored
      have locks := (meets name).locked
      rw [empty] at stored locks
      -- Of the events that are not for the name only a survey or an eviction concerns it.
      have stays : middle.hasLock name ∧ middle.stored? name = none := by
        by_cases concerned : event.concerns name
        · have elsewhere := apart _ List.mem_cons_self
          obtain ⟨retained, nothing⟩ :=
            Event.retains_of_subject? elsewhere concerned now.time (session.hasLock name)
          rw [if_pos concerned] at stored locks
          exact ⟨locks.trans (retained.trans locked), stored.trans nothing⟩
        · rw [if_neg concerned] at stored locks
          exact ⟨locks.trans locked, stored⟩
      obtain ⟨reports, next, goesOn, final⟩ := ih kept stays.1 stays.2 others
      exact ⟨_, next, performAll_cons performed goesOn, final⟩

/-- Every stored operation has a lock, and a lock without an operation is one that a missed
operation has left. If none was missed, the table has exactly the locks of the stored operations.
But whenever an operation is missed a lock is left, and it stays whatever happens to other names
and however often operations are evicted.

To forget an operation, and each visit of an eviction, is taken together with the discard that
follows it. If the discard came later by itself, an operation that is stored in between would be
without its lock for a while.
-/
theorem locks_left (history : List (Event α ε × Reading))
    : ∃ reports session, Event.performAll history {} = some (reports, session)
        ∧ (∀ name, (session.stored? name).isSome → session.hasLock name)
        ∧ (∀ name, session.hasLock name → (session.stored? name).isSome ∨ HasMissed history name)
        ∧ ((∀ name, ¬ HasMissed history name)
            → session.locks.locks.keys.Perm session.barrier.operations.keys
              ∧ session.locks.size = session.barrier.count)
        ∧ ∀ name event now rest, event.misses name (session.stored? name)
            → (∀ entry ∈ rest, entry.1.subject? ≠ some name)
            → ∃ others final,
                Event.performAll (history ++ (event, now) :: rest) {} = some (others, final)
                ∧ final.hasLock name
                ∧ final.stored? name = none := by
  obtain ⟨reports, session, performed, calm, bonds⟩ := exists_performAll history
  have accounted (name : String) (locked : session.hasLock name)
      : (session.stored? name).isSome ∨ HasMissed history name := by
    cases found : session.stored? name with
    | some operation => exact Or.inl rfl
    | none => exact Or.inr (bonds.spare name locked found)
  refine ⟨reports, session, performed, bonds.owned, accounted, ?_, ?_⟩
  · intro faultless
    have same : session.locks.locks.keys.Perm session.barrier.operations.keys := by
      apply (List.perm_ext_iff_of_nodup session.locks.locks.distinct
        session.barrier.operations.distinct).mpr
      intro name
      change name ∈ session.locks.locks.keys ↔ name ∈ session.barrier.operations.keys
      rw [← Ledger.isSome_get?_iff, ← Ledger.isSome_get?_iff]
      exact ⟨fun locked => (accounted name locked).resolve_right (faultless name),
        bonds.owned name⟩
    refine ⟨same, ?_⟩
    rw [LockTable.size, Barrier.count, ← Ledger.length_keys, ← Ledger.length_keys]
    exact same.length_eq
  · intro name event now rest misses apart
    obtain ⟨outcome, middle, goesOn, kept, meets⟩ := calm.after_event event now
    have stored := (meets name).stored
    have locks := (meets name).locked
    obtain ⟨concerned, retained, nothing⟩ :=
      Event.retains_of_misses misses now.time (session.hasLock name)
    rw [if_pos concerned] at stored locks
    obtain ⟨others, final, ends, left⟩ :=
      kept.spare_performAll (locks.trans retained) (stored.trans nothing) rest apart
    exact ⟨_, final, performAll_append_eq_some performed (performAll_cons goesOn ends), left⟩

/-- The lock of a contribution that was turned down is still there when the only operation there was
has been forgotten and all that is old enough is evicted.
-/
theorem locks_left_turnedDown
    : let contribution (operation : String) (howMany : Int) : Contribution Nat :=
        { operation, item := "a", howMany := some howMany, value := 7, client := 0 }
      let at_ (count : Dyadic) : Reading := .ofNumber (.number count)
      let history : List (Event Nat Nat × Reading) := [(.enter (contribution "h" 2), at_ 1)]
      let refused : Event Nat Nat := .enter (contribution "g" 0)
      let rest : List (Event Nat Nat × Reading) := [(.forget "h", at_ 3), (.evict 0, at_ 4)]
      refused.misses "g" none
      ∧ (∀ entry ∈ rest, entry.1.subject? ≠ some "g")
      ∧ ∃ others final,
          Event.performAll (history ++ (refused, at_ 2) :: rest) {} = some (others, final)
          ∧ final.hasLock "g"
          ∧ final.barrier.count = 0 := by
  intro contribution at_ history refused rest
  have misses : refused.misses "g" none := ⟨rfl, rfl, Int.le_refl 0⟩
  have apart : ∀ entry ∈ rest, entry.1.subject? ≠ some "g" := by simp [rest, Event.subject?]
  obtain ⟨_, session, performed, -, -, -, stays⟩ := locks_left history
  have unknown : (Event.performAll history {}).map (fun result => (result.2.stored? "g").isNone)
      = some true := by decide +kernel
  rw [performed, Option.map_some, Option.some.injEq, Option.isNone_iff_eq_none] at unknown
  obtain ⟨others, final, ends, locked, -⟩ := stays "g" refused (at_ 2) rest (unknown ▸ misses) apart
  have empty : (Event.performAll (history ++ (refused, at_ 2) :: rest) {}).map
      (fun result => result.2.barrier.count) = some 0 := by decide +kernel
  rw [ends, Option.map_some, Option.some.injEq] at empty
  exact ⟨misses, apart, others, final, ends, locked, empty⟩

/-- After a single call, which is turned down, there is a lock and no operation. -/
theorem lock_of_turnedDown_call
    : let call : Call Nat Nat :=
        .offer { operation := "g", item := "a", howMany := some 0, value := 7, client := 0 } []
          fun _ => .returned 5
      ∃ reports session, Call.performAll [call] {} = some (reports, session)
        ∧ session.locks.locks.keys = ["g"]
        ∧ session.barrier.operations.keys = [] := by
  intro call
  have left : (Call.performAll [call] {}).map
      (fun result => (result.2.locks.locks.keys, result.2.barrier.operations.keys))
        = some (["g"], []) := by decide +kernel
  obtain ⟨⟨reports, session⟩, performed, keys⟩ := Option.map_eq_some_iff.mp left
  rw [Prod.mk.injEq] at keys
  exact ⟨reports, session, performed, keys⟩

end Session

end DiscVolume
