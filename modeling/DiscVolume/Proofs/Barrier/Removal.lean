import DiscVolume.Proofs.Barrier.Creation

/-! Removing operations. To forget a name removes its operation and nothing else, and the next call
that makes an operation finds the name as new. To evict is to forget each operation that finished
long enough ago.
-/

namespace DiscVolume

-----------------------------------------------------------------------------------------
-- Ages
-----------------------------------------------------------------------------------------

theorem Place.isBefore_eq_false_iff {a b : Place}
    : b.isBefore a = false ↔ a = b ∨ a.isBefore b = true := by
  cases a <;> cases b <;> simp only [Place.isBefore] <;> grind

namespace Seconds

/-- Whether a span is as long as a limit or longer. One that is undefined falls short of no limit,
and no span falls short of an undefined limit.
-/
def reaches (span limit : Seconds) : Prop :=
  ∀ reached ∈ span.place?, ∀ least ∈ limit.place?, least = reached ∨ least.isBefore reached = true

theorem exceeds_eq_false_iff {span limit : Seconds}
    : limit.exceeds span = false ↔ span.reaches limit := by
  rw [exceeds, reaches]
  cases limit.place? with
  | none => simp
  | some least =>
      cases span.place? with
      | none => simp
      | some reached => simpa using Place.isBefore_eq_false_iff

end Seconds

namespace Operation

variable {operation : Operation α ε} {age now : Seconds}

/-- An operation that finished an age ago or more. -/
def IsAged (operation : Operation α ε) (age now : Seconds) : Prop :=
  ∃ verdict ended passed, operation.phase = .finished verdict ended
    ∧ now.minus ended = .ok passed
    ∧ passed.reaches age

/-- An operation that has not finished, or did so a time ago that can be told. -/
def IsTold (operation : Operation α ε) (now : Seconds) : Prop :=
  ∀ verdict ended, operation.phase = .finished verdict ended
    → ∃ passed, now.minus ended = .ok passed

theorem isDue_iff : operation.isDue age now = .ok true ↔ operation.IsAged age now := by
  rw [isDue, IsAged]
  cases operation.phase with
  | idle | running _ => simp
  | finished verdict ended =>
      cases passed : now.minus ended with
      | error fault => simp [passed, Except.map]
      | ok span => simp [passed, Except.map, Seconds.exceeds_eq_false_iff]

theorem exists_isDue_iff : (∃ due, operation.isDue age now = .ok due) ↔ operation.IsTold now := by
  rw [isDue, IsTold]
  cases operation.phase with
  | idle | running _ => simp
  | finished verdict ended => cases passed : now.minus ended <;> simp [passed, Except.map]

/-- What is stored is gone after an eviction just if it finished long enough ago. -/
theorem isGone_iff {stored : Option (Operation α ε)}
    : isGone age now stored ↔ ∃ operation, stored = some operation ∧ operation.IsAged age now := by
  cases stored with
  | none => simp [isGone]
  | some operation =>
      simp only [isGone, evicted, Option.some.injEq, exists_eq_left', ← isDue_iff]
      cases operation.isDue age now with
      | error fault => simp
      | ok due => cases due <;> simp

end Operation

-----------------------------------------------------------------------------------------
-- What is dropped
-----------------------------------------------------------------------------------------

namespace Barrier

variable {barrier next : Barrier α ε} {name : String}

/-- A barrier without the operation of a name. -/
def without (barrier : Barrier α ε) (name : String) : Barrier α ε where
  operations := barrier.operations.drop name

/-- An operation that is not running is dropped when it is forgotten. -/
theorem forgetting_of_idle
    (idle : ∀ operation ∈ barrier.operations.get? name, operation.phase.isRunning = false)
    : forgetting name barrier
      = (.ok (barrier.operations.get? name).isSome, barrier.without name) := by
  rw [forgetting, forget, without]
  cases found : barrier.operations.get? name with
  | none => rw [Ledger.drop_of_get?_eq_none found, Option.isSome_none]
  | some operation =>
      have still := idle operation found
      cases phase : operation.phase with
      | running since =>
          rw [phase] at still
          cases still
      | idle | finished _ _ => simp only [phase, Option.isSome_some]

/-- An eviction drops an operation that is due and leaves any other. -/
theorem evict_of_ok {age now : Seconds} {due : Bool}
    (answered : (barrier.evict name age now).1 = .ok due)
    : (barrier.evict name age now).2 = if due then barrier.without name else barrier := by
  rw [evict] at answered ⊢
  split at answered
  · cases answered
    rfl
  · split at answered
    · split at answered
      · cases answered
      · split at answered
        · next young =>
            cases answered
            exact if_pos young ▸ rfl
        · next aged =>
            cases answered
            exact if_neg aged ▸ rfl
    · cases answered
      rfl
    · cases answered
      rfl

end Barrier

namespace Session

variable {session next : Session α ε} {name : String} {age now : Seconds}

/-- At rest and at the same time as before, with some barrier. -/
structure Leaves (next session : Session α ε) (barrier : Barrier α ε) : Prop where
  rest : next.locks.IsAtRest
  now : next.now = session.now
  barrier : next.barrier = barrier

/-- What is not running is forgotten. -/
theorem forget_of_idle (rest : session.locks.IsAtRest)
    (idle : ∀ operation ∈ session.stored? name, operation.phase.isRunning = false)
    : ∃ next, forget name session = some (.ok (session.stored? name).isSome, next)
        ∧ next.Leaves session (session.barrier.without name) := by
  have held := session.holding_eq rest name fun _ => Barrier.forgetting name
  rw [Barrier.forgetting_of_idle idle] at held
  have goesOn : forget name session = _ := bind_of_eq_some held
  refine ⟨_, goesOn.trans rfl, ?_, rfl, rfl⟩
  exact (rest.provide name).discard name

/-- A visit takes the step of an eviction that is about its name. -/
theorem visit_leaves (rest : session.locks.IsAtRest) (age : Seconds) (name : String)
    : ∃ next, visit age name session
          = some ((session.barrier.evict name age session.now).1, next)
        ∧ next.Leaves session (session.barrier.evict name age session.now).2 := by
  have held := session.holding_eq rest name fun now barrier => barrier.evict name age now
  have goesOn : visit age name session = _ := bind_of_eq_some held
  have provided := rest.provide name
  rw [goesOn]
  cases (session.barrier.evict name age session.now).1 with
  | error fault => exact ⟨_, rfl, provided, rfl, rfl⟩
  | ok due =>
      cases due with
      | false => exact ⟨_, rfl, provided, rfl, rfl⟩
      | true => exact ⟨_, rfl, provided.discard name, rfl, rfl⟩

/-- An eviction that tells what it dropped has dropped just that, name by name. -/
theorem evictAmong_leaves (rest : session.locks.IsAtRest) {names dropped : List String}
    (evicted : evictAmong age names session = some (.ok dropped, next))
    : next.Leaves session (dropped.foldl Barrier.without session.barrier) := by
  induction names generalizing session dropped with
  | nil =>
      cases evicted
      exact ⟨rest, rfl, rfl⟩
  | cons name others ih =>
      obtain ⟨middle, visited, left⟩ := visit_leaves rest age name
      rw [evictAmong_cons, bind_of_eq_some visited] at evicted
      have shrunk := left.barrier
      cases answered : (session.barrier.evict name age session.now).1 with
      | error fault =>
          rw [answered] at evicted
          cases evicted
      | ok due =>
          rw [Barrier.evict_of_ok answered] at shrunk
          rw [answered] at evicted
          cases due with
          | false =>
              have others := ih left.rest evicted
              rw [shrunk] at others
              exact ⟨others.rest, others.now.trans left.now, others.barrier⟩
          | true =>
              obtain ⟨⟨found, last⟩, goesOn, ended⟩ := Option.bind_eq_some_iff.mp evicted
              cases found with
              | error fault => cases ended
              | ok more =>
                  cases ended
                  have others := ih left.rest goesOn
                  rw [shrunk] at others
                  exact ⟨others.rest, others.now.trans left.now, others.barrier⟩

/-- An eviction fails if the age of some operation that it visits cannot be told. -/
theorem evictAmong_of_untold (rest : session.locks.IsAtRest) {names : List String}
    (distinct : names.Nodup) {untold : String} (member : untold ∈ names)
    {operation : Operation α ε} (stored : session.stored? untold = some operation)
    (unclear : ¬ operation.IsTold session.now)
    : ∃ fault next, evictAmong age names session = some (.error fault, next) := by
  induction names generalizing session with
  | nil => cases member
  | cons name others ih =>
      obtain ⟨middle, visited, but⟩ := visit_isBut rest age name
      rw [evictAmong_cons, bind_of_eq_some visited]
      obtain ⟨new, distinct⟩ := List.nodup_cons.mp distinct
      rcases List.mem_cons.mp member with rfl | behind
      · cases answered : operation.isDue age session.now with
        | error fault =>
            rw [stored, Operation.evicted, answered]
            exact ⟨fault, middle, rfl⟩
        | ok due => exact absurd (Operation.exists_isDue_iff.mp ⟨due, answered⟩) unclear
      · -- A visit to another name does not change what is stored here.
        have still : middle.stored? untold = some operation := by
          have differs : untold ≠ name := by
            rintro rfl
            exact new behind
          rw [but.stored, if_neg differs, stored]
        obtain ⟨fault, next, failed⟩ := ih but.rest distinct behind still (by rwa [but.now])
        cases (Operation.evicted age session.now (session.stored? name)).1 with
        | error fault => exact ⟨fault, middle, rfl⟩
        | ok due =>
            cases due with
            | false => exact ⟨fault, next, failed⟩
            | true => exact ⟨fault, next, bind_of_eq_some failed⟩

-----------------------------------------------------------------------------------------
-- A name that is as new
-----------------------------------------------------------------------------------------

/-- Whether an event is a valid call for a name. -/
def Event.isCallOn (name : String) : Event α ε → Bool
  | enter contribution => contribution.operation = name && contribution.isValid
  | conclude _ _ | forget _ | survey | visit _ _ | evict _ => false

/-- Only a valid call makes an operation under a name that has none. -/
theorem IsAlike.absent_perform (alike : session.IsAlike session)
    (absent : session.stored? name = none) {event : Event α ε}
    (other : event.isCallOn name = false) (now : Seconds)
    : ∃ outcome next, event.perform { session with now } = some (outcome, next)
        ∧ next.IsAlike next
        ∧ next.stored? name = none := by
  obtain ⟨outcome, next, performed, kept⟩ := alike.perform event now
  refine ⟨outcome, next, performed, kept, ?_⟩
  have unknown : name ∉ session.barrier.operations.keys := by
    rw [mem_keys_iff, absent]
    exact Bool.false_ne_true
  rw [← Option.not_isSome_iff_eq_none, ← mem_keys_iff]
  have awake : ({ session with now } : Session α ε).locks.IsAtRest := alike.rest
  rcases keys_perform awake performed with thinned | ⟨contribution, rfl, valid, -, behind⟩
  · exact fun found => unknown (thinned.subset found)
  · rw [behind, List.mem_append, List.mem_singleton, not_or]
    refine ⟨unknown, ?_⟩
    rintro rfl
    simp [Event.isCallOn, valid] at other

/-- A name without an operation has none until the next valid call for it. By induction on the
events until then.
-/
theorem IsAlike.absent_performTimed (alike : session.IsAlike session)
    (absent : session.stored? name = none) (history : List (Event α ε × Seconds))
    (others : ∀ entry ∈ history, entry.1.isCallOn name = false)
    : ∃ reports next, Event.performTimed history session = some (reports, next)
        ∧ next.IsAlike next
        ∧ next.stored? name = none := by
  induction history generalizing session with
  | nil => exact ⟨[], session, rfl, alike, absent⟩
  | cons entry history ih =>
      obtain ⟨event, now⟩ := entry
      obtain ⟨outcome, middle, performed, kept, still⟩ :=
        alike.absent_perform absent (others _ List.mem_cons_self) now
      obtain ⟨reports, next, goesOn, ended⟩ :=
        ih kept still fun entry member => others entry (List.mem_cons_of_mem _ member)
      exact ⟨_, next, performTimed_cons_of_eq_some performed goesOn, ended⟩

end Session

/-- An operation that takes a contribution never refuses it. -/
theorem Operation.accept_ne_failed (operation : Operation α ε) (contribution : Contribution α)
    (now : Seconds) (refusal : Refusal)
    : (operation.accept contribution now).1 ≠ .answered (.failed refusal) := by
  have proceeds (operation : Operation α ε)
      : (operation.proceed now contribution.runTimeout).1 ≠ .answered (.failed refusal) := by
    unfold proceed
    split
    · simp
    · split <;> simp
    · simp
  unfold accept
  split
  · exact proceeds operation
  · split
    · simp
    · simp
    · dsimp only
      split
      · exact proceeds _
      · simp

/-- A valid contribution is not refused where nothing is stored. -/
theorem Contribution.meet_ne_failed {contribution : Contribution α}
    (valid : contribution.isValid) (now : Seconds) (refusal : Refusal)
    : (contribution.meet now (none : Option (Operation α ε))).1
      ≠ .answered (.failed refusal) := by
  have positive : 0 < contribution.howMany.getD 0 := of_decide_eq_true valid
  rw [meet, admitTo, if_neg (Int.not_le.mpr positive)]
  exact Operation.accept_ne_failed _ contribution now refusal

namespace Session

variable {session next : Session α ε} {name : String} {age now : Seconds}

/-- What a call on a name comes to in one session as in another: it has the same outcome, which is
no refusal, and the same is stored under the name afterwards.
-/
def IsAnsweredAlike (contribution : Contribution α) (now : Seconds)
    (session other : Session α ε) : Prop :=
  ∃ turn next final,
    (Event.enter contribution).perform { session with now } = some (.turned turn, next)
    ∧ (Event.enter contribution).perform { other with now } = some (.turned turn, final)
    ∧ next.stored? contribution.operation = final.stored? contribution.operation
    ∧ ∀ refusal, turn ≠ .answered (.failed refusal)

/-- A call on a name without an operation is answered from the call alone. -/
theorem perform_enter_of_absent (rest : session.locks.IsAtRest) {contribution : Contribution α}
    (absent : session.stored? contribution.operation = none)
    : ∃ next, (Event.enter contribution).perform session
          = some (.turned (contribution.meet session.now (none : Option (Operation α ε))).1, next)
        ∧ next.stored? contribution.operation = (contribution.meet session.now none).2 := by
  have named : (Event.enter (ε := ε) contribution).subject? = some contribution.operation := rfl
  obtain ⟨next, performed, but⟩ := perform_isBut rest named
  rw [absent] at performed but
  refine ⟨next, performed, ?_⟩
  rw [but.stored, if_pos rfl]
  rfl

theorem isAnsweredAlike_of_absent {other : Session α ε} (rest : session.locks.IsAtRest)
    (otherRest : other.locks.IsAtRest) {contribution : Contribution α}
    (valid : contribution.isValid) (absent : session.stored? contribution.operation = none)
    (otherAbsent : other.stored? contribution.operation = none) (now : Seconds)
    : IsAnsweredAlike contribution now session other := by
  have awake : ({ session with now } : Session α ε).locks.IsAtRest := rest
  have otherAwake : ({ other with now } : Session α ε).locks.IsAtRest := otherRest
  obtain ⟨next, performed, stored⟩ := perform_enter_of_absent awake absent
  obtain ⟨final, again, otherStored⟩ := perform_enter_of_absent otherAwake otherAbsent
  exact ⟨_, next, final, performed, again, stored.trans otherStored.symm,
    contribution.meet_ne_failed valid now⟩

-----------------------------------------------------------------------------------------
-- Removals from any session
-----------------------------------------------------------------------------------------

/-- What forgetting a name at some time does to a session. -/
structure Forgets (session : Session α ε) (name : String) (now : Seconds) (next : Session α ε)
    : Prop where
  performed : (Event.forget name).perform { session with now }
    = some (.forgotten (.ok (session.stored? name).isSome), next)
  removed : next.stored? name = none
  kept : ∀ other, other ≠ name → next.stored? other = session.stored? other
  /-- Whatever else happens, the next valid call on the name is answered as in a new session. -/
  isNew : ∀ history : List (Event α ε × Seconds),
    (∀ entry ∈ history, entry.1.isCallOn name = false)
    → ∃ reports later, Event.performTimed history next = some (reports, later)
        ∧ ∀ contribution time, contribution.operation = name → contribution.isValid
          → IsAnsweredAlike contribution time later {}

/-- What an eviction of some names at some time does to the session that a history leaves. -/
structure Evicts (history : List (Event α ε × Seconds)) (session : Session α ε)
    (age now : Seconds) (names : List String) (next : Session α ε)
    : Prop where
  performed : (Event.evict age).perform { session with now } = some (.evicted (.ok names), next)
  distinct : names.Nodup
  aged : ∀ name, name ∈ names
    ↔ ∃ operation, session.stored? name = some operation ∧ operation.IsAged age now
  ordered : names.Pairwise (MadeBefore history)
  stored : ∀ name, next.stored? name = if name ∈ names then none else session.stored? name
  /-- To forget one of the names after the other has the same effect. -/
  forgetting : ∃ reports final,
    Event.performTimed (names.map fun name => (.forget name, now)) session = some (reports, final)
    ∧ (∀ report ∈ reports, report.2 = .forgotten (.ok true))
    ∧ final.barrier = next.barrier
  again : ∃ last, (Event.evict age).perform { next with now } = some (.evicted (.ok []), last)
    ∧ last.barrier = next.barrier

/-- The age of every finished operation of a session can be told at some time. -/
def TellsAges (session : Session α ε) (now : Seconds) : Prop :=
  ∀ name operation, session.stored? name = some operation → operation.IsTold now

theorem stored?_of_leaves {barrier : Barrier α ε} (left : next.Leaves session barrier)
    (name : String)
    : next.stored? name = barrier.operations.get? name := by
  rw [stored?, left.barrier]

theorem IsAlike.forgets (alike : session.IsAlike session) {name : String} (now : Seconds)
    (idle : ∀ operation ∈ session.stored? name, operation.phase.isRunning = false)
    : ∃ next, session.Forgets name now next := by
  have awake := alike.at_time now
  obtain ⟨next, forgotten, left⟩ := forget_of_idle awake.rest idle
  have stored (other : String) : next.stored? other
      = if other = name then none else session.stored? other :=
    (stored?_of_leaves left other).trans (Ledger.get?_drop _ name other)
  have removed : next.stored? name = none := (stored name).trans (if_pos rfl)
  have performed : (Event.forget name).perform { session with now }
      = some (.forgotten (.ok (session.stored? name).isSome), next) := bind_of_eq_some forgotten
  refine ⟨next, performed, removed, fun other differs => ?_, fun history others => ?_⟩
  · rw [stored, if_neg differs]
  · obtain ⟨outcome, next', again, kept⟩ := alike.perform (.forget name) now
    rw [performed] at again
    cases again
    obtain ⟨reports, later, goesOn, still, absent⟩ :=
      kept.absent_performTimed removed history others
    refine ⟨reports, later, goesOn, fun contribution time named valid => ?_⟩
    subst named
    exact isAnsweredAlike_of_absent still.rest isAlike_new.rest valid absent rfl time

/-- What is left in a barrier without some names. -/
theorem get?_foldl_without (names : List String) (barrier : Barrier α ε) (other : String)
    : (names.foldl Barrier.without barrier).operations.get? other
      = if other ∈ names then none else barrier.operations.get? other := by
  induction names generalizing barrier with
  | nil => simp
  | cons name others ih =>
      have dropped : (barrier.without name).operations.get? other
          = if other = name then none else barrier.operations.get? other := Ledger.get?_drop _ _ _
      rw [List.foldl_cons, ih, dropped]
      by_cases same : other = name <;> simp [same]

/-- To forget names of operations that are not running drops them one by one. -/
theorem performTimed_forget (rest : session.locks.IsAtRest) {names : List String}
    (distinct : names.Nodup)
    (idle : ∀ name ∈ names, ∃ operation, session.stored? name = some operation
      ∧ operation.phase.isRunning = false)
    (now : Seconds)
    : ∃ reports final,
        Event.performTimed (names.map fun name => (.forget name, now)) session
          = some (reports, final)
        ∧ (∀ report ∈ reports, report.2 = .forgotten (.ok true))
        ∧ final.barrier = names.foldl Barrier.without session.barrier := by
  induction names generalizing session with
  | nil => exact ⟨[], session, rfl, fun _ none => (List.not_mem_nil none).elim, rfl⟩
  | cons name others ih =>
      obtain ⟨new, distinct⟩ := List.nodup_cons.mp distinct
      obtain ⟨operation, found, still⟩ := idle name List.mem_cons_self
      have awake : ({ session with now } : Session α ε).locks.IsAtRest := rest
      have quiet : ∀ operation ∈ ({ session with now } : Session α ε).stored? name,
          operation.phase.isRunning = false := by
        intro known member
        cases Option.some.inj (found.symm.trans member)
        exact still
      obtain ⟨middle, forgotten, left⟩ := forget_of_idle awake quiet
      obtain ⟨reports, final, goesOn, allTrue, ended⟩ := ih left.rest distinct
          fun other member => by
        have differs : other ≠ name := by
          rintro rfl
          exact new member
        rw [stored?_of_leaves left]
        have kept : (session.barrier.without name).operations.get? other
            = session.stored? other := (Ledger.get?_drop _ _ _).trans (if_neg differs)
        rw [kept]
        exact idle other (List.mem_cons_of_mem _ member)
      have performed : (Event.forget name).perform { session with now }
          = some (.forgotten (.ok true), middle) := by
        have existed : ({ session with now } : Session α ε).stored? name = some operation := found
        rw [existed] at forgotten
        exact bind_of_eq_some forgotten
      refine ⟨_, final, performTimed_cons_of_eq_some performed goesOn, ?_, ?_⟩
      · intro report member
        rcases List.mem_cons.mp member with rfl | behind
        · rfl
        · exact allTrue report behind
      · rw [ended, left.barrier]
        rfl

/-- The names whose operations finished an age ago or more, in their order. -/
def aged (session : Session α ε) (age now : Seconds) : List String :=
  session.barrier.operations.keys.filter fun name =>
    Operation.isGone age now (session.stored? name)

theorem mem_aged_iff
    : name ∈ session.aged age now
      ↔ ∃ operation, session.stored? name = some operation ∧ operation.IsAged age now := by
  rw [aged, List.mem_filter, mem_keys_iff, Operation.isGone_iff]
  refine and_iff_right_of_imp ?_
  rintro ⟨operation, found, -⟩
  rw [found]
  rfl

/-- Where all ages can be told, an eviction drops the operations that are old enough. -/
theorem evict_of_told (rest : session.locks.IsAtRest) (age : Seconds)
    (told : session.TellsAges session.now)
    : ∃ next, (Event.evict age).perform session
          = some (.evicted (.ok (session.aged age session.now)), next)
        ∧ next.Leaves session
            ((session.aged age session.now).foldl Barrier.without session.barrier) := by
  obtain ⟨next, evicted, -⟩ := evictAmong_isSwept rest session.barrier.operations.distinct
    fun name _ operation found => Operation.exists_isDue_iff.mpr (told name operation found)
  exact ⟨next, bind_of_eq_some evicted, evictAmong_leaves rest evicted⟩

theorem Chronicles.evicts {history : List (Event α ε × Seconds)}
    (chronicles : Chronicles history session) (age now : Seconds) (told : session.TellsAges now)
    : ∃ next, Evicts history session age now (session.aged age now) next := by
  have awake : ({ session with now } : Session α ε).locks.IsAtRest := chronicles.alike.rest
  have distinct : (session.aged age now).Nodup := session.barrier.operations.distinct.filter _
  obtain ⟨next, performed, left⟩ := evict_of_told awake age told
  have stored (name : String) : next.stored? name
      = if name ∈ session.aged age now then none else session.stored? name :=
    (stored?_of_leaves left name).trans (get?_foldl_without _ _ name)
  refine ⟨next, performed, distinct, fun name => mem_aged_iff,
    chronicles.ordered.sublist List.filter_sublist, stored, ?_, ?_⟩
  · have idle : ∀ name ∈ session.aged age now, ∃ operation, session.stored? name = some operation
        ∧ operation.phase.isRunning = false := by
      intro name member
      obtain ⟨operation, found, verdict, ended, -, finished, -⟩ := mem_aged_iff.mp member
      exact ⟨operation, found, by rw [finished]; rfl⟩
    obtain ⟨reports, final, forgotten, allTrue, same⟩ :=
      performTimed_forget chronicles.alike.rest distinct idle now
    exact ⟨reports, final, forgotten, allTrue, same.trans left.barrier.symm⟩
  · -- What is left is not old enough, and nothing has come to it.
    have nextAwake : ({ next with now } : Session α ε).locks.IsAtRest := left.rest
    have nextTold : next.TellsAges now := by
      intro name operation found
      rw [stored] at found
      split at found
      · cases found
      · exact told name operation found
    have noneLeft : next.aged age now = [] := by
      refine List.eq_nil_iff_forall_not_mem.mpr fun name member => ?_
      obtain ⟨operation, found, isAged⟩ := mem_aged_iff.mp member
      rw [stored] at found
      split at found
      · cases found
      · next young => exact young (mem_aged_iff.mpr ⟨operation, found, isAged⟩)
    obtain ⟨last, again, same⟩ := evict_of_told nextAwake age nextTold
    have nothing : ({ next with now } : Session α ε).aged age now = [] := noneLeft
    rw [nothing] at again same
    exact ⟨last, again, same.barrier⟩

/-- Where some age cannot be told, an eviction fails. -/
theorem evict_of_untold (rest : session.locks.IsAtRest) (age : Seconds)
    (unclear : ¬ session.TellsAges session.now)
    : ∃ fault next, (Event.evict age).perform session = some (.evicted (.error fault), next) := by
  simp only [TellsAges, not_forall] at unclear
  obtain ⟨name, operation, found, untold⟩ := unclear
  have member : name ∈ session.barrier.operations.keys := by
    rw [mem_keys_iff, found]
    rfl
  obtain ⟨fault, next, failed⟩ :=
    evictAmong_of_untold rest session.barrier.operations.distinct member found untold
  exact ⟨fault, next, bind_of_eq_some failed⟩

/-- Ages can be told where all times are readings of a clock. By induction on the history. -/
theorem tellsAges_of_isMeasured {history : List (Event α ε × Seconds)}
    (calm : session.IsCalm) (measured : ∀ entry ∈ history, entry.2.isMeasured)
    {reports : List (Event α ε × Outcome α ε)}
    (performed : Event.performTimed history session = some (reports, next))
    (now : Reading)
    : next.TellsAges now.time := by
  induction history generalizing session reports with
  | nil =>
      cases performed
      intro name operation found
      exact Operation.exists_isDue_iff.mp ((calm.timed name operation found).isDue 0 now)
  | cons entry history ih =>
      obtain ⟨event, time⟩ := entry
      obtain ⟨outcome, middle, began, kept, -⟩ :=
        calm.after_event event ⟨time, measured _ List.mem_cons_self⟩
      rw [performTimed_cons began] at performed
      obtain ⟨⟨others, last⟩, goesOn, ended⟩ := Option.map_eq_some_iff.mp performed
      cases ended
      exact ih kept (fun entry member => measured entry (List.mem_cons_of_mem _ member)) goesOn

/-- Whatever has happened to a barrier, operations are removed as they are asked to be, each as
often as it is there. What is not running can be forgotten, and its name is then as new. An eviction
drops the operations that finished long enough ago, in the order in which they were made, if it can
be told how long that is; it can where all times are readings of a clock.
-/
theorem removals_exact (history : List (Event α ε × Seconds))
    : ∃ reports session, Event.performTimed history {} = some (reports, session)
        ∧ (∀ name now,
            (∀ operation ∈ session.stored? name, operation.phase.isRunning = false)
            → ∃ next, Forgets session name now next)
        ∧ (∀ age now, session.TellsAges now
            → ∃ names next, Evicts history session age now names next)
        ∧ (∀ age now, ¬ session.TellsAges now
            → ∃ fault next, (Event.evict age).perform { session with now }
              = some (.evicted (.error fault), next))
        ∧ ((∀ entry ∈ history, entry.2.isMeasured)
            → ∀ now : Reading, session.TellsAges now.time) := by
  obtain ⟨reports, session, performed, chronicles⟩ := exists_performTimed history
  refine ⟨reports, session, performed, fun name now idle => chronicles.alike.forgets now idle,
    fun age now told => ?_, fun age now unclear => ?_, fun measured now => ?_⟩
  · obtain ⟨next, evicts⟩ := chronicles.evicts age now told
    exact ⟨_, next, evicts⟩
  · have awake : ({ session with now } : Session α ε).locks.IsAtRest := chronicles.alike.rest
    exact evict_of_untold awake age unclear
  · exact tellsAges_of_isMeasured isCalm_new measured performed now

/-- Of two operations that finished, the one that finished last is just old enough; the one that is
collecting stays.
-/
example
    : let enter (operation : String) (howMany : Int) : Event Nat Nat :=
        .enter { operation, item := "a", howMany := some howMany, value := 7, client := 0 }
      (Event.performTimed [
          (enter "h" 1, 1), (enter "g" 1, 1), (.conclude "g" (.returned 5), 2),
          (.conclude "h" (.raised 6), 3), (enter "k" 2, 4), (.evict 1, 4)] {}).map
        (fun result => result.2.barrier.operations.keys) = some ["k"] := by
  decide +kernel

end Session

end DiscVolume
