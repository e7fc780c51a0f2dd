import DiscVolume.Proofs.Barrier.Events

/-! Operations do not interfere. From the point of view of a name any history is the run of one
operation by itself, and only the events that concern the name take part in it.
-/

namespace DiscVolume.Session

/-- What the reports of events say about a name. -/
def seen (name : String) (reports : List (Event α ε × Outcome α ε))
    : List (Event α ε × Outcome α ε) :=
  (reports.filter fun report => report.1.concerns name).map fun report =>
    (report.1, report.2.within name)

/-- What comes of the events of a history for one operation by itself, in the order in which they
concern it, and what is stored of it in the end.
-/
def follow (name : String) : List (Event α ε × Reading) → Option (Operation α ε)
    → List (Event α ε × Outcome α ε) × Option (Operation α ε)
  | [], stored => ([], stored)
  | (event, now) :: others, stored =>
      if event.concerns name then
        let (outcome, next) := event.meet name now.time stored
        let (reports, final) := follow name others next
        ((event, outcome) :: reports, final)
      else follow name others stored

/-- Events that do not concern a name may be left out. -/
theorem follow_filter (name : String) (history : List (Event α ε × Reading))
    (stored : Option (Operation α ε))
    : follow name (history.filter fun entry => entry.1.concerns name) stored
      = follow name history stored := by
  induction history generalizing stored with
  | nil => rfl
  | cons entry history ih =>
      obtain ⟨event, now⟩ := entry
      rw [List.filter_cons, follow]
      split
      · next concerned => simp only [follow, concerned, if_true, ih]
      · exact ih stored

/-- Every history of a calm session is performed to its end. From the point of view of a name it is
the history of one operation by itself.
-/
theorem IsCalm.performAll_eq_follow {session : Session α ε} (calm : session.IsCalm)
    (history : List (Event α ε × Reading))
    : ∃ reports next, Event.performAll history session = some (reports, next)
        ∧ next.IsCalm
        ∧ ∀ name, seen name reports = (follow name history (session.stored? name)).1
            ∧ next.stored? name = (follow name history (session.stored? name)).2 := by
  induction history generalizing session with
  | nil => exact ⟨[], session, rfl, calm, fun _ => ⟨rfl, rfl⟩⟩
  | cons entry history ih =>
      obtain ⟨event, now⟩ := entry
      obtain ⟨outcome, middle, performed, kept, meets⟩ := calm.after_event event now
      obtain ⟨reports, next, goesOn, final, follows⟩ := ih kept
      refine ⟨(event, outcome) :: reports, next, performAll_cons performed goesOn, final, ?_⟩
      intro name
      obtain ⟨told, stored⟩ := follows name
      have remains := (meets name).stored
      rw [seen] at told
      rw [follow, seen, List.filter_cons]
      split
      · next concerned =>
          rw [remains, if_pos concerned] at told stored
          exact ⟨by rw [List.map_cons, (meets name).told concerned, told], stored⟩
      · next apart =>
          rw [remains, if_neg apart] at told stored
          exact ⟨told, stored⟩

/-- Events for one name do not concern another. -/
theorem filter_of_subject? {events : List (Event α ε × Reading)} {subject name : String}
    (named : ∀ entry ∈ events, entry.1.subject? = some subject) (differs : subject ≠ name)
    : events.filter (fun entry => entry.1.concerns name) = [] := by
  rw [List.filter_eq_nil_iff]
  intro entry member
  simp [Event.concerns, named entry member, differs]

/-- Histories with the same events for a name look the same from it. -/
theorem seen_eq_of_filter_eq {history other : List (Event α ε × Reading)} {name : String}
    (same : history.filter (fun entry => entry.1.concerns name)
      = other.filter fun entry => entry.1.concerns name)
    {reports others : List (Event α ε × Outcome α ε)} {session final : Session α ε}
    (performed : Event.performAll history {} = some (reports, session))
    (again : Event.performAll other {} = some (others, final))
    : seen name reports = seen name others ∧ session.stored? name = final.stored? name := by
  obtain ⟨_, _, first, -, follows⟩ := isCalm_new.performAll_eq_follow history
  obtain ⟨_, _, second, -, followed⟩ := isCalm_new.performAll_eq_follow other
  cases performed.symm.trans first
  cases again.symm.trans second
  obtain ⟨told, stored⟩ := follows name
  obtain ⟨toldAgain, storedAgain⟩ := followed name
  rw [← follow_filter, same, follow_filter] at told stored
  exact ⟨told.trans toldAgain.symm, stored.trans storedAgain.symm⟩

/-- Whatever else happens, a name sees the history of its own operation: what comes of the events
that concern it, and what is stored of the operation in the end, is the same as if only these
events had taken place. So requests for different names can change places: no name shows in what
order they were made.
-/
theorem operations_independent (history : List (Event α ε × Reading)) (name : String)
    : (∃ reports session others reduced,
        Event.performAll history {} = some (reports, session)
        ∧ Event.performAll (history.filter fun entry => entry.1.concerns name) {}
          = some (others, reduced)
        ∧ seen name reports = seen name others
        ∧ session.stored? name = reduced.stored? name)
      ∧ ∀ (own foreign rest : List (Event α ε × Reading)) (other : String), other ≠ name
          → (∀ entry ∈ own, entry.1.subject? = some name)
          → (∀ entry ∈ foreign, entry.1.subject? = some other)
          → ∃ reports session others swapped,
              Event.performAll (history ++ own ++ foreign ++ rest) {} = some (reports, session)
              ∧ Event.performAll (history ++ foreign ++ own ++ rest) {} = some (others, swapped)
              ∧ ∀ any, seen any reports = seen any others
                  ∧ session.stored? any = swapped.stored? any := by
  refine ⟨?_, ?_⟩
  · obtain ⟨reports, session, performed, -⟩ := isCalm_new.performAll_eq_follow history
    obtain ⟨others, reduced, again, -⟩ := isCalm_new.performAll_eq_follow
      (history.filter fun entry => entry.1.concerns name)
    refine ⟨reports, session, others, reduced, performed, again, ?_⟩
    refine seen_eq_of_filter_eq ?_ performed again
    rw [List.filter_filter]
    simp only [Bool.and_self]
  · intro own foreign rest other differs mine theirs
    obtain ⟨reports, session, performed, -⟩ :=
      isCalm_new.performAll_eq_follow (history ++ own ++ foreign ++ rest)
    obtain ⟨others, swapped, again, -⟩ :=
      isCalm_new.performAll_eq_follow (history ++ foreign ++ own ++ rest)
    refine ⟨reports, session, others, swapped, performed, again, fun any => ?_⟩
    refine seen_eq_of_filter_eq ?_ performed again
    simp only [List.filter_append, List.append_assoc]
    by_cases same : any = name
    · rw [filter_of_subject? theirs (by rwa [same]), List.nil_append, List.nil_append]
    · rw [filter_of_subject? mine (fun h => same h.symm), List.nil_append, List.nil_append]

/-- One operation is run to an end and another until it is interrupted, in either order; the
eviction afterwards finds the one that has ended.
-/
theorem operations_independent_pair
    : let contribution (operation : String) : Contribution Nat :=
        { operation, item := "a", howMany := some 1, value := 7, client := 0 }
      let at_ (count : Dyadic) : Reading := .ofNumber (.number count)
      let own : List (Event Nat Nat × Reading) :=
        [(.enter (contribution "g"), at_ 1), (.conclude "g" (.returned 5), at_ 2)]
      let foreign : List (Event Nat Nat × Reading) :=
        [(.enter (contribution "h"), at_ 1), (.conclude "h" .interrupted, at_ 3)]
      let sweep : List (Event Nat Nat × Reading) := [(.evict 1, at_ 4)]
      (∀ entry ∈ own, entry.1.subject? = some "g")
      ∧ (∀ entry ∈ foreign, entry.1.subject? = some "h")
      ∧ ∃ reports session others swapped,
          Event.performAll (own ++ foreign ++ sweep) {} = some (reports, session)
          ∧ Event.performAll (foreign ++ own ++ sweep) {} = some (others, swapped)
          ∧ seen "g" reports = seen "g" others
          ∧ (seen "g" reports).length = 3
          ∧ swapped.stored? "g" = none
          ∧ (swapped.stored? "h").isSome := by
  intro contribution at_ own foreign sweep
  have mine : ∀ entry ∈ own, entry.1.subject? = some "g" := by
    simp [own, Event.subject?, contribution]
  have theirs : ∀ entry ∈ foreign, entry.1.subject? = some "h" := by
    simp [foreign, Event.subject?, contribution]
  obtain ⟨-, swaps⟩ := operations_independent ([] : List (Event Nat Nat × Reading)) "g"
  obtain ⟨reports, session, others, swapped, performed, again, same⟩ :=
    swaps own foreign sweep "h" (by decide) mine theirs
  have length : (Event.performAll (own ++ foreign ++ sweep) {}).map
      (fun result => (seen "g" result.1).length) = some 3 := by decide +kernel
  have left : (Event.performAll (foreign ++ own ++ sweep) {}).map
      (fun result => ((result.2.stored? "g").isNone, (result.2.stored? "h").isSome))
        = some (true, true) := by decide +kernel
  rw [List.nil_append] at performed again
  rw [performed, Option.map_some, Option.some.injEq] at length
  rw [again, Option.map_some, Option.some.injEq, Prod.mk.injEq] at left
  exact ⟨mine, theirs, reports, session, others, swapped, performed, again, (same "g").1, length,
    Option.isNone_iff_eq_none.mp left.1, left.2⟩

end DiscVolume.Session
