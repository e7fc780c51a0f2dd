import DiscVolume.Proofs.Barrier.History
import Mathlib.Data.List.Induction

/-! Whoever is told how an operation ended is told the same. The verdict comes to callers in two
ways: the one who ran the operation gets it from the run, and later ones from the record. The
invariant says that the record has the verdict of the one run that was completed.
-/

namespace DiscVolume

/-- The verdict of a run that ended like this, if the run counts as made. -/
def Ending.verdict? : Ending α ε → Option (Except ε α)
  | returned value => some (.ok value)
  | raised error => some (.error error)
  | interrupted => none

/-- The verdict on an operation, once it has finished. -/
def Phase.verdict? : Phase α ε → Option (Except ε α)
  | finished verdict _ => some verdict
  | idle | running _ => none

theorem Ending.verdict?_phase (ending : Ending α ε) (now : Seconds)
    : (ending.phase now).verdict? = ending.verdict? := by
  cases ending <;> rfl

theorem Phase.verdict?_eq_none {phase : Phase α ε} (running : phase.isRunning)
    : phase.verdict? = none := by
  cases phase with
  | running _ => rfl
  | idle | finished _ _ => cases running

namespace Operation

variable {operation : Operation α ε} {contribution : Contribution α} {now : Seconds}

theorem phase_of_proceed_done {runTimeout : Seconds} {verdict : Except ε α}
    (done : (operation.proceed now runTimeout).1 = .answered (.done verdict))
    : operation.phase.verdict? = some verdict := by
  unfold proceed at done
  split at done
  · next phase =>
      rw [phase]
      cases done
      rfl
  · split at done <;> cases done
  · cases done

/-- Only what is on record is told to a contributor. -/
theorem phase_of_accept_done {verdict : Except ε α}
    (done : (operation.accept contribution now).1 = .answered (.done verdict))
    : operation.phase.verdict? = some verdict := by
  unfold accept at done
  split at done
  · exact phase_of_proceed_done done
  · split at done
    · cases done
    · cases done
    · simp only at done
      split at done
      · rw [← operation.phase_collect contribution.item contribution.value]
        exact phase_of_proceed_done done
      · cases done

/-- A contribution does not change the verdict on an operation. -/
theorem IsSound.verdict?_accept (sound : operation.IsSound) (contribution : Contribution α)
    (now : Seconds)
    : (operation.accept contribution now).2.phase.verdict? = operation.phase.verdict? := by
  obtain ⟨turn, next, accepted, advance⟩ := sound.advance_accept contribution now
  rw [accepted]
  cases advance with
  | stays _ _ phase _ => exact congrArg Phase.verdict? phase
  | starts idle running _ => rw [idle, running, Phase.verdict?, Phase.verdict?]

/-- Once an operation has begun, all its items are there. -/
theorem IsSound.isComplete (sound : operation.IsSound) (begun : operation.phase ≠ .idle)
    : operation.isComplete :=
  isComplete_iff.mpr (Nat.le_of_eq (sound.full begun).symm)

/-- A finished operation answers with its verdict and stays as it is. -/
theorem IsSound.accept_of_verdict (sound : operation.IsSound) {verdict : Except ε α}
    (finished : operation.phase.verdict? = some verdict) (contribution : Contribution α)
    (now : Seconds)
    : operation.accept contribution now = (.answered (.done verdict), operation) := by
  cases phase : operation.phase with
  | idle | running _ =>
      rw [phase] at finished
      cases finished
  | finished known ended =>
      rw [phase] at finished
      cases finished
      have complete := sound.isComplete (by simp [phase])
      rw [accept, if_pos complete, proceed, phase]

/-- A complete operation that is idle is run on all its items. -/
theorem accept_of_idle (complete : operation.isComplete) (idle : operation.phase = .idle)
    (contribution : Contribution α) (now : Seconds)
    : (operation.accept contribution now).1 = .mustRun operation.items := by
  rw [accept, if_pos complete, proceed, idle]

end Operation

namespace Barrier

/-- What a caller gets from the operation of a name in one of its lifetimes. -/
structure Notice (α ε : Type) where
  operation : String
  lifetime : Nat
  attempt : Attempt α ε

namespace Scene

/-- What a caller gets by a step. A contribution that has to be followed by a run gets nothing
before the end of the run.
-/
def notices (scene : Scene α ε) : Move α ε → List (Notice α ε)
  | .enter contribution now =>
      let name := contribution.operation
      match (scene.barrier.enter contribution now).1 with
      | .answered response => [⟨name, scene.removals name, .responded response⟩]
      | .untimed fault => [⟨name, scene.removals name, .untimed fault⟩]
      | .mustRun _ => []
  | .conclude place ending now =>
      match scene.runs[place]? with
      | some run =>
          let attempt := (Session.conclude run.operation ending now scene.barrier).1
          [⟨run.operation, run.lifetime, attempt⟩]
      | none => []
  | .forget _ | .evict _ _ _ => []

/-- The verdict of the run that a step completes, if it is a run in a lifetime of a name. -/
def verdicts (name : String) (lifetime : Nat) (scene : Scene α ε) : Move α ε → List (Except ε α)
  | .conclude place ending _ =>
      match scene.runs[place]? with
      | some run =>
          if run.operation = name ∧ run.lifetime = lifetime then ending.verdict?.toList else []
      | none => []
  | .enter _ _ | .forget _ | .evict _ _ _ => []

/-- The contribution to the operation of a name that a step makes, if it is valid. -/
def admitted (name : String) (scene : Scene α ε) : Move α ε → List (Contribution α)
  | .enter contribution now =>
      if contribution.operation = name
          ∧ (contribution.admitTo now (scene.stored? name)).toOption.isSome then
        [contribution]
      else []
  | .conclude _ _ _ | .forget _ | .evict _ _ _ => []

/-- The verdict on record for a name. -/
def verdict? (scene : Scene α ε) (name : String) : Option (Except ε α) :=
  (scene.stored? name).bind fun operation => operation.phase.verdict?

variable {scene : Scene α ε} {name : String}

theorem verdicts_of_isRemoval {move : Move α ε} (removal : move.isRemoval) (lifetime : Nat)
    : scene.verdicts name lifetime move = [] := by
  cases move with
  | enter _ _ | conclude _ _ _ => cases removal
  | forget _ | evict _ _ _ => rfl

theorem verdicts_of_subject? {move : Move α ε} (elsewhere : scene.subject? move ≠ some name)
    (lifetime : Nat)
    : scene.verdicts name lifetime move = [] := by
  cases move with
  | enter _ _ | forget _ | evict _ _ _ => rfl
  | conclude place ending now =>
      cases at_place : scene.runs[place]? with
      | none => simp only [verdicts, at_place]
      | some run =>
          have differs : run.operation ≠ name := by
            rintro rfl
            exact elsewhere (by simp [subject?, at_place])
          simp only [verdicts, at_place, differs, false_and, if_false]

/-- What a history says about the verdicts on the operations of a name. -/
structure Records (moves : List (Move α ε)) (name : String) : Prop where
  current : along (verdicts name ((reached moves).removals name)) {} moves
    = ((reached moves).verdict? name).toList
  future : ∀ lifetime, (reached moves).removals name < lifetime
    → along (verdicts name lifetime) {} moves = []
  told : ∀ lifetime verdict,
    (⟨name, lifetime, .responded (.done verdict)⟩ : Notice α ε) ∈ along notices {} moves
    → along (verdicts name lifetime) {} moves = [verdict]

theorem verdict?_of_stored {next : Scene α ε} (stored : next.stored? name = scene.stored? name)
    : next.verdict? name = scene.verdict? name := by
  rw [verdict?, verdict?, stored]

/-- What a contribution finds on record is what there was before it. -/
theorem IsSound.verdict?_taken (sound : scene.IsSound) {contribution : Contribution α}
    {now : Seconds} {operation : Operation α ε}
    (admits : contribution.admitTo now (scene.stored? name) = .ok operation)
    : (operation.accept contribution now).2.phase.verdict? = scene.verdict? name := by
  rw [(sound.admitTo admits).verdict?_accept]
  rcases Contribution.admitTo_eq_ok admits with known | ⟨new, idle, -⟩
  · rw [verdict?, known]
    rfl
  · rw [idle, verdict?, new]
    rfl

/-- A notice that an operation is done has the verdict on record, or that of the run which the
step completes.
-/
theorem IsSound.done_of_notices (sound : scene.IsSound) {move : Move α ε} {lifetime : Nat}
    {verdict : Except ε α}
    (told : (⟨name, lifetime, .responded (.done verdict)⟩ : Notice α ε) ∈ scene.notices move)
    : lifetime = scene.removals name
      ∧ (scene.verdict? name).toList ++ scene.verdicts name lifetime move = [verdict] := by
  cases move with
  | forget other | evict other age now => cases told
  | enter contribution now =>
      obtain ⟨answer, -⟩ := actsOn_enter (ε := ε) contribution now scene.barrier
      cases turn : (scene.barrier.enter contribution now).1 with
      | mustRun items | untimed fault => simp [notices, turn] at told
      | answered response =>
          simp only [notices, turn, List.mem_singleton, Notice.mk.injEq, Attempt.responded.injEq]
            at told
          obtain ⟨rfl, rfl, rfl⟩ := told
          refine ⟨rfl, ?_⟩
          rw [turn, Contribution.meet] at answer
          cases admits : contribution.admitTo now
              (scene.barrier.operations.get? contribution.operation) with
          | error refusal =>
              rw [admits] at answer
              cases answer
          | ok operation =>
              rw [admits] at answer
              have finished := Operation.phase_of_accept_done answer.symm
              rcases Contribution.admitTo_eq_ok admits with known | ⟨-, idle, -⟩
              · have record : scene.verdict? contribution.operation = some verdict := by
                  rw [verdict?, stored?, known]
                  exact finished
                simp [record, verdicts]
              · rw [idle] at finished
                cases finished
  | conclude place ending now =>
      cases at_place : scene.runs[place]? with
      | none => simp [notices, at_place] at told
      | some run =>
          obtain ⟨operation, found, running, -, lives⟩ :=
            sound.atWork run (List.mem_of_getElem? at_place)
          obtain ⟨answer, -⟩ := actsOn_conclude run.operation ending now scene.barrier
          simp only [notices, at_place, List.mem_singleton, Notice.mk.injEq] at told
          obtain ⟨rfl, rfl, same⟩ := told
          rw [answer] at same
          refine ⟨lives, ?_⟩
          have record : scene.verdict? run.operation = none := by
            rw [verdict?, found]
            exact Phase.verdict?_eq_none running
          cases ending with
          | returned value | raised error =>
              cases same
              simp [record, verdicts, at_place, Ending.verdict?]
          | interrupted => cases same

/-- Only a run at work is completed, and while it is at work nothing is on record. -/
theorem IsSound.verdicts_eq_nil (sound : scene.IsSound) {lifetime : Nat} (move : Move α ε)
    (other : lifetime = scene.removals name → scene.verdict? name ≠ none)
    : scene.verdicts name lifetime move = [] := by
  cases move with
  | enter _ _ | forget _ | evict _ _ _ => rfl
  | conclude place ending now =>
      cases at_place : scene.runs[place]? with
      | none => simp only [verdicts, at_place]
      | some run =>
          obtain ⟨operation, found, running, -, lives⟩ :=
            sound.atWork run (List.mem_of_getElem? at_place)
          simp only [verdicts, at_place]
          rw [if_neg]
          rintro ⟨rfl, rfl⟩
          apply other lives
          rw [verdict?, found]
          exact Phase.verdict?_eq_none running

/-- A new barrier has nothing on record. -/
theorem records_nil (name : String) : Records ([] : List (Move α ε)) name where
  current := rfl
  future _ _ := rfl
  told _ _ member := by cases member

/-- What a history says about the verdict on record stays right with every step. -/
theorem Records.current_concat {moves : List (Move α ε)} (records : Records moves name)
    (move : Move α ε)
    : along (verdicts name ((reached (moves ++ [move])).removals name)) {} (moves ++ [move])
      = ((reached (moves ++ [move])).verdict? name).toList := by
  have sound : (reached moves).IsSound := isSound_reached moves
  rw [along_concat, reached_concat]
  cases sound.bearing name move with
  | apart elsewhere stored removals =>
      rw [removals, verdicts_of_subject? elsewhere, List.append_nil, records.current,
        verdict?_of_stored stored]
  | refused named refuses stored removals =>
      rw [removals, records.current, verdict?_of_stored stored]
      exact List.append_nil _
  | @taken contribution now operation named admits stored removals =>
      have record : ((reached moves).after (.enter contribution now)).verdict? name
          = (reached moves).verdict? name := by
        rw [← sound.verdict?_taken admits, verdict?, stored]
        rfl
      rw [removals, records.current, record]
      exact List.append_nil _
  | @ended place ending now run operation at_place named found running lifetime stored removals =>
      have unsettled : (reached moves).verdict? name = none := by
        rw [verdict?, found]
        exact Phase.verdict?_eq_none running
      rw [removals, records.current, unsettled, verdict?, stored]
      simp only [verdicts, at_place, named, lifetime, and_self, if_true, Option.toList_none,
        List.nil_append, Option.bind_some, Ending.verdict?_phase]
  | spared removal stored removals =>
      rw [removals, verdicts_of_isRemoval removal, List.append_nil, records.current,
        verdict?_of_stored stored]
  | removed removal found resting stored removals =>
      -- A new lifetime begins, of which the history says nothing yet.
      rw [removals, verdicts_of_isRemoval removal, List.append_nil, verdict?, stored]
      exact records.future _ (Nat.lt_succ_self _)

/-- What a history says about verdicts stays right with every step. -/
theorem Records.concat {moves : List (Move α ε)} (records : Records moves name)
    (move : Move α ε)
    : Records (moves ++ [move]) name := by
  have sound : (reached moves).IsSound := isSound_reached moves
  refine ⟨records.current_concat move, ?_, ?_⟩
  · intro lifetime later
    have earlier : (reached moves).removals name < lifetime := by
      refine Nat.lt_of_le_of_lt ?_ later
      rw [reached_append]
      exact sound.removals_le name [move]
    rw [along_concat, records.future lifetime earlier]
    refine sound.verdicts_eq_nil move ?_
    intro same
    omega
  · intro lifetime verdict member
    rw [along_concat, List.mem_append] at member
    rw [along_concat]
    rcases member with before | now
    · -- The lifetime has its verdict, so no run of it is at work any more.
      have known := records.told lifetime verdict before
      refine (congrArg (_ ++ ·) (sound.verdicts_eq_nil move ?_)).trans
        ((List.append_nil _).trans known)
      rintro rfl unsettled
      rw [records.current, unsettled] at known
      cases known
    · obtain ⟨rfl, agrees⟩ := sound.done_of_notices now
      rw [records.current]
      exact agrees

theorem records_reached (moves : List (Move α ε)) (name : String) : Records moves name := by
  induction moves using List.reverseRecOn with
  | nil => exact records_nil name
  | append_singleton moves move records => exact records.concat move

/-- An idle operation stays as it is as long as nobody contributes to it and it is not removed. -/
theorem IsSound.stored?_of_unadmitted (sound : scene.IsSound) {operation : Operation α ε}
    (found : scene.stored? name = some operation) (idle : operation.phase = .idle)
    {moves : List (Move α ε)} (unadmitted : scene.along (admitted name) moves = [])
    (kept : (moves.foldl Scene.after scene).removals name = scene.removals name)
    : (moves.foldl Scene.after scene).stored? name = some operation := by
  induction moves generalizing scene with
  | nil => exact found
  | cons move moves ih =>
      obtain ⟨first, others⟩ := List.append_eq_nil_iff.mp unadmitted
      obtain ⟨now, later⟩ := sound.kept_cons kept
      cases sound.bearing name move with
      | apart _ stored _ | refused _ _ stored _ | spared _ stored _ =>
          exact ih (sound.after _) (stored.trans found) others later
      | taken named admits =>
          simp [admitted, named, admits, Except.toOption] at first
      | ended _ _ known running =>
          cases found.symm.trans known
          rw [idle] at running
          cases running
      | removed _ _ _ _ removals => omega

/-- An operation whose run was interrupted is as it was before the run, but for its phase. -/
theorem IsSound.after_interrupted (sound : scene.IsSound) {place : Nat} {run : Run α}
    (at_place : scene.runs[place]? = some run) (now : Seconds)
    : ∃ operation, (scene.after (.conclude place .interrupted now)).stored? run.operation
          = some operation
        ∧ operation.phase = .idle
        ∧ operation.items = run.items
        ∧ operation.isComplete
        ∧ (scene.after (.conclude place .interrupted now)).removals run.operation
          = run.lifetime := by
  obtain ⟨operation, found, running, items, -⟩ :=
    sound.atWork run (List.mem_of_getElem? at_place)
  have complete := (sound.operations _ _ found).isComplete (Phase.ne_idle_of_isRunning running)
  refine ⟨{ operation with phase := .idle }, ?_⟩
  cases sound.bearing run.operation (.conclude place .interrupted now) with
  | apart elsewhere => exact absurd (by simp [subject?, at_place]) elsewhere
  | ended same _ known _ lifetime stored removals =>
      cases found.symm.trans known
      cases at_place.symm.trans same
      exact ⟨stored, rfl, items, complete, removals.trans lifetime.symm⟩
  | spared removal | removed removal => cases removal

/-- All who are told in one lifetime of a name that its operation is done are told the same, which
is how the one run ended that was completed. From then on every valid contribution is told so at
once and changes nothing. The end of a run that is interrupted is no verdict: the caller gets the
interruption, and the next valid contribution is to run the operation on the same items.
-/
theorem outcome_agrees (moves : List (Move α ε)) (name : String)
    : let scene := reached moves
      (∀ lifetime verdict,
          (⟨name, lifetime, .responded (.done verdict)⟩ : Notice α ε) ∈ along notices {} moves
            → along (verdicts name lifetime) {} moves = [verdict])
      ∧ (∀ verdict,
          (⟨name, scene.removals name, .responded (.done verdict)⟩ : Notice α ε)
              ∈ along notices {} moves
            → ∀ contribution now operation, contribution.operation = name
              → contribution.admitTo now (scene.stored? name) = .ok operation
              → scene.barrier.enter contribution now
                  = (.answered (.done verdict), scene.barrier))
      ∧ ∀ place run now rest, scene.runs[place]? = some run → run.operation = name
          → let stop : Move α ε := .conclude place .interrupted now
            let later := reached (moves ++ stop :: rest)
            scene.notices stop = [⟨name, run.lifetime, .interrupted⟩]
            ∧ (∀ lifetime, scene.verdicts name lifetime stop = [])
            ∧ ((scene.after stop).along (admitted name) rest = []
                → later.removals name = run.lifetime
                → ∀ contribution now operation, contribution.operation = name
                  → contribution.admitTo now (later.stored? name) = .ok operation
                  → (later.barrier.enter contribution now).1 = .mustRun run.items) := by
  intro scene
  have sound : scene.IsSound := isSound_reached moves
  have records := records_reached moves name
  refine ⟨records.told, ?_, ?_⟩
  · rintro verdict told contribution now operation rfl admits
    have record : scene.verdict? contribution.operation = some verdict := by
      have known := records.current.symm.trans (records.told _ verdict told)
      exact Option.toList_eq_singleton_iff.mp known
    obtain ⟨known, found, finished⟩ := Option.bind_eq_some_iff.mp record
    rcases Contribution.admitTo_eq_ok admits with same | ⟨absent, -, -⟩
    · cases found.symm.trans same
      have accepted :=
        (sound.operations _ _ found).accept_of_verdict finished contribution now
      have stored : scene.barrier.operations.get? contribution.operation = some operation := found
      rw [stored?, stored] at admits
      simp only [enter, stored, admits, accepted, Ledger.put_of_get? stored]
    · cases found.symm.trans absent
  · rintro place run now rest at_place rfl stop later
    refine ⟨?_, ?_, ?_⟩
    · simp only [stop, notices, at_place, Session.conclude]
    · intro lifetime
      simp [stop, verdicts, at_place, Ending.verdict?]
    · intro unadmitted kept contribution at_ known named admits
      obtain ⟨operation, found, idle, items, complete, lifetime⟩ :=
        sound.after_interrupted at_place now
      have reaches : later = rest.foldl after (scene.after stop) := reached_append _ _
      have stays : later.stored? run.operation = some operation := by
        rw [reaches] at kept ⊢
        exact (sound.after stop).stored?_of_unadmitted found idle unadmitted
          (kept.trans lifetime.symm)
      rw [stays] at admits
      obtain ⟨answer, -⟩ := actsOn_enter (ε := ε) contribution at_ later.barrier
      have stored : later.barrier.operations.get? contribution.operation = some operation := by
        rw [named]
        exact stays
      rcases Contribution.admitTo_eq_ok admits with same | ⟨absent, -⟩
      · cases same
        rw [answer, stored, Contribution.meet, admits, ← items]
        exact Operation.accept_of_idle complete idle contribution at_
      · cases absent

/-- Of two callers of two, the second is interrupted. The next is to run the operation on the items
of the first two, and what comes of that is told to later callers as well.
-/
theorem outcome_agrees_retried
    : let contribution (item : String) : Contribution Nat :=
        { operation := "g", item, howMany := some 2, value := 7, client := 0 }
      let begun : List (Move Nat Nat) := [.enter (contribution "a") 0, .enter (contribution "b") 0]
      let stop : Move Nat Nat := .conclude 0 .interrupted 1
      let moves := begun ++ [stop, .enter (contribution "c") 2, .conclude 0 (.returned 5) 3]
      along (verdicts "g" 0) {} moves = [.ok 5]
      ∧ (reached moves).barrier.enter (contribution "d") 9
          = (.answered (.done (.ok 5)), (reached moves).barrier)
      ∧ ∃ run, (reached begun).runs[0]? = some run
          ∧ ((reached (begun ++ [stop])).barrier.enter (contribution "c") 2).1
              = .mustRun run.items := by
  intro contribution begun stop moves
  obtain ⟨agrees, replays, -⟩ := outcome_agrees moves "g"
  obtain ⟨-, -, retried⟩ := outcome_agrees begun "g"
  have told : (⟨"g", 0, .responded (.done (.ok 5))⟩ : Notice Nat Nat) ∈ along notices {} moves := by
    let before := begun ++ [stop, .enter (contribution "c") 2]
    have atWork : (reached before).runs[0]?.map (fun run => (run.operation, run.lifetime))
        = some ("g", 0) := by decide +kernel
    obtain ⟨run, found, same⟩ := Option.map_eq_some_iff.mp atWork
    obtain ⟨named, lifetime⟩ := Prod.mk.inj same
    change _ ∈ along notices {} (before ++ [.conclude 0 (.returned 5) 3])
    rw [along_concat]
    apply List.mem_append_right
    simp [notices, found, named, lifetime, Session.conclude]
  have admitted (scene : Scene Nat Nat) (item : String) (now : Seconds)
      (valid : ((contribution item).admitTo now (scene.stored? "g")).toOption.isSome)
      : ∃ operation, (contribution item).admitTo now (scene.stored? "g") = .ok operation := by
    cases admits : (contribution item).admitTo now (scene.stored? "g") with
    | ok operation => exact ⟨operation, rfl⟩
    | error refusal =>
        rw [admits] at valid
        cases valid
  have lifetime : (reached moves).removals "g" = 0 := by decide +kernel
  obtain ⟨_, admits⟩ := admitted (reached moves) "d" 9 (by decide +kernel)
  have replayed := replays (.ok 5) (lifetime.symm ▸ told) (contribution "d") 9 _ rfl admits
  refine ⟨agrees 0 _ told, replayed, ?_⟩
  obtain ⟨_, admits⟩ := admitted (reached (begun ++ [stop])) "c" 2 (by decide +kernel)
  obtain ⟨run, at_place⟩ : ∃ run, (reached begun).runs[0]? = some run := ⟨_, rfl⟩
  have named : run.operation = "g" := by
    cases at_place
    rfl
  obtain ⟨-, -, again⟩ := retried 0 run 1 [] at_place named
  have kept : (reached (begun ++ [stop])).removals "g" = run.lifetime := by
    cases at_place
    rfl
  exact ⟨run, at_place, again rfl kept (contribution "c") 2 _ rfl admits⟩

end Scene

end Barrier

end DiscVolume
