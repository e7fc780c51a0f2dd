import DiscVolume.Proofs.Barrier.History

/-! What an operation collects: of the items that come with accepted contributions, the first
distinct ones, as many as it waits for, each with the value that came first. The invariant ties
what is stored to the list of what has been accepted; once all items are there, later
contributions add to the list only.
-/

namespace DiscVolume

/-- Whether a contribution is accepted: it is neither turned down nor late. One that is cut off
because the time cannot be told has no answer.
-/
def Turn.isAccepted : Turn α ε → Bool
  | answered (.failed _) | answered .collectionTimeout | untimed _ => false
  | answered .waiting | answered .running | answered .runTimeout | answered (.done _)
    | mustRun _ => true

namespace Operation

/-- Records an item if some are missing. -/
def enroll (operation : Operation α ε) (item : String) (value : α) : Operation α ε :=
  if operation.isComplete then operation else operation.collect item value

theorem howMany_collect (operation : Operation α ε) (item : String) (value : α)
    : (operation.collect item value).howMany = operation.howMany := by
  unfold collect
  split <;> rfl

theorem howMany_enroll (operation : Operation α ε) (item : String) (value : α)
    : (operation.enroll item value).howMany = operation.howMany := by
  unfold enroll
  split
  · rfl
  · exact operation.howMany_collect item value

/-- Going on with a complete operation is a matter of its phase. Only a caller who is to run it
starts a run, on all that is recorded.
-/
theorem proceed_items (operation : Operation α ε) (now runTimeout : Seconds)
    : (operation.proceed now runTimeout).2.items = operation.items
      ∧ (operation.proceed now runTimeout).2.howMany = operation.howMany
      ∧ (operation.proceed now runTimeout).1 ≠ .answered .waiting
      ∧ (operation.proceed now runTimeout).1 ≠ .answered .collectionTimeout := by
  unfold proceed
  cases operation.phase with
  | finished verdict ended => simp
  | idle => simp
  | running since =>
      dsimp only
      cases isOverdue now since runTimeout with
      | error fault => simp
      | ok late => cases late <;> simp

variable {operation : Operation α ε}

/-- A complete operation takes nothing more, and has nobody wait or come too late. -/
theorem accept_of_complete (complete : operation.isComplete) (contribution : Contribution α)
    (now : Seconds)
    : (operation.accept contribution now).2.items = operation.items
      ∧ (operation.accept contribution now).2.howMany = operation.howMany
      ∧ (operation.accept contribution now).1 ≠ .answered .waiting
      ∧ (operation.accept contribution now).1 ≠ .answered .collectionTimeout := by
  rw [accept, if_pos complete]
  exact operation.proceed_items now contribution.runTimeout

/-- What is recorded after a contribution, and when the caller has to wait for more. -/
structure Intake (operation : Operation α ε) (contribution : Contribution α) (turn : Turn α ε)
    (next : Operation α ε) : Prop where
  items : next.items
    = if turn.isAccepted then (operation.enroll contribution.item contribution.value).items
      else operation.items
  howMany : next.howMany = operation.howMany
  waits : turn.isAccepted → (turn = .answered .waiting ↔ next.items.size < next.howMany)

/-- A contribution is recorded if and only if it is accepted. -/
theorem IsSound.intake_accept (sound : operation.IsSound) (contribution : Contribution α)
    (now : Seconds)
    : operation.Intake contribution (operation.accept contribution now).1
        (operation.accept contribution now).2 := by
  by_cases complete : operation.isComplete
  · obtain ⟨items, howMany, noWait, -⟩ := accept_of_complete complete contribution now
    refine ⟨?_, howMany, fun _ => iff_of_false noWait ?_⟩
    · rw [items, enroll, if_pos complete, ite_self]
    · rw [items, howMany, Nat.not_lt]
      exact isComplete_iff.mp complete
  · have enrolled : operation.enroll contribution.item contribution.value
        = operation.collect contribution.item contribution.value := by
      rw [enroll, if_neg complete]
    have howMany := operation.howMany_collect contribution.item contribution.value
    have idle := (operation.phase_collect contribution.item contribution.value).trans
      (sound.phase_eq_idle complete)
    rw [accept, if_neg complete]
    cases isOverdue now operation.collectingSince contribution.collectionTimeout with
    | error fault => exact ⟨rfl, rfl, fun accepted => by cases accepted⟩
    | ok late =>
        cases late with
        | true => exact ⟨rfl, rfl, fun accepted => by cases accepted⟩
        | false =>
            dsimp only
            split
            · next full =>
                -- The item was the last that was missing, so the run falls to the caller.
                rw [proceed, idle]
                refine ⟨(congrArg items enrolled).symm, howMany, fun _ => ?_⟩
                exact iff_of_false (by simp) (Nat.not_lt.mpr (isComplete_iff.mp full))
            · next missing =>
                refine ⟨(congrArg items enrolled).symm, howMany, fun _ => iff_of_true rfl ?_⟩
                exact Nat.lt_of_not_le fun full => missing (isComplete_iff.mpr full)

/-- What is recorded of the contributions that were accepted, the first of them first. -/
structure Holds (operation : Operation α ε) (offered : List (String × α)) : Prop where
  keys : operation.items.keys = (offered.map Prod.fst).eraseDups.take operation.howMany
  values : ∀ item ∈ operation.items.keys, operation.items.get? item = offered.lookup item

theorem Holds.of_items {other : Operation α ε} {offered : List (String × α)}
    (holds : operation.Holds offered) (items : other.items = operation.items)
    (howMany : other.howMany = operation.howMany)
    : other.Holds offered := by
  refine ⟨?_, ?_⟩
  · rw [items, howMany, holds.keys]
  · rw [items]
    exact holds.values

/-- Distinct items followed by one more. -/
theorem eraseDups_concat (items : List String) (item : String)
    : (items ++ [item]).eraseDups
      = if item ∈ items then items.eraseDups else items.eraseDups ++ [item] := by
  rw [List.eraseDups_append, List.removeAll]
  split
  · next known => simp [known]
  · next new => simp [new, List.eraseDups_cons]

/-- An item that has been offered keeps the value that came first. -/
theorem lookup_concat {offered : List (String × α)} {item : String}
    (known : item ∈ offered.map Prod.fst) (entry : String × α)
    : (offered ++ [entry]).lookup item = offered.lookup item := by
  obtain ⟨found, member, rfl⟩ := List.mem_map.mp known
  have isSome : (offered.lookup found.1).isSome :=
    List.lookup_isSome_iff.mpr ⟨found, member, beq_self_eq_true _⟩
  rw [List.lookup_append, Option.or_of_isSome isSome]

/-- An item that has not been offered before gets the value that comes with it. -/
theorem lookup_concat_new {offered : List (String × α)} {item : String}
    (new : item ∉ offered.map Prod.fst) (value : α)
    : (offered ++ [(item, value)]).lookup item = some value := by
  have unknown : offered.lookup item = none := by
    rw [List.lookup_eq_none_iff]
    intro entry member
    rw [bne_iff_ne]
    rintro rfl
    exact new (List.mem_map_of_mem member)
  rw [List.lookup_append, unknown, Option.none_or, List.lookup_cons_self]

/-- What is recorded has been offered. -/
theorem Holds.offered {offered : List (String × α)} (holds : operation.Holds offered)
    {item : String} (member : item ∈ operation.items.keys)
    : item ∈ offered.map Prod.fst := by
  rw [holds.keys] at member
  exact List.mem_eraseDups.mp (List.mem_of_mem_take member)

/-- While some items are missing, all that have been offered are recorded. -/
theorem Holds.keys_of_incomplete {offered : List (String × α)} (holds : operation.Holds offered)
    (incomplete : ¬ operation.isComplete)
    : operation.items.keys = (offered.map Prod.fst).eraseDups := by
  rw [isComplete_iff, ← Ledger.length_keys, holds.keys, List.length_take] at incomplete
  rw [holds.keys, List.take_of_length_le]
  omega

/-- A complete operation takes no account of what is offered later. -/
theorem Holds.surplus {offered : List (String × α)} (holds : operation.Holds offered)
    (complete : operation.isComplete) (item : String) (value : α)
    : operation.Holds (offered ++ [(item, value)]) := by
  have enough : operation.howMany ≤ (offered.map Prod.fst).eraseDups.length := by
    rw [isComplete_iff, ← Ledger.length_keys, holds.keys, List.length_take] at complete
    omega
  refine ⟨?_, ?_⟩
  · rw [holds.keys, List.map_append, List.map_singleton, eraseDups_concat]
    split
    · rfl
    · rw [List.take_append_of_le_length enough]
  · intro other member
    rw [lookup_concat (holds.offered member)]
    exact holds.values other member

/-- An incomplete operation records an item that is offered, if it is new. -/
theorem Holds.collect {offered : List (String × α)} (holds : operation.Holds offered)
    (incomplete : ¬ operation.isComplete) (item : String) (value : α)
    : (operation.collect item value).Holds (offered ++ [(item, value)]) := by
  have keys := holds.keys_of_incomplete incomplete
  have recorded : item ∈ operation.items.keys ↔ item ∈ offered.map Prod.fst := by
    rw [keys]
    exact List.mem_eraseDups
  have bound : operation.items.keys.length < operation.howMany := by
    rw [isComplete_iff, ← Ledger.length_keys] at incomplete
    exact Nat.lt_of_not_le incomplete
  unfold Operation.collect
  cases found : operation.items.get? item with
  | some first =>
      -- The item was offered before, and its first value stays.
      have known : item ∈ operation.items.keys :=
        (operation.items.isSome_get?_iff item).mp (by simp [found])
      refine ⟨?_, ?_⟩
      · rw [holds.keys, List.map_append, List.map_singleton, eraseDups_concat,
          if_pos (recorded.mp known)]
      · intro other member
        rw [lookup_concat (holds.offered member)]
        exact holds.values other member
  | none =>
      have new : item ∉ operation.items.keys := by
        intro known
        rw [← operation.items.isSome_get?_iff, found] at known
        cases known
      -- With some items missing, what is not recorded has not been offered at all.
      have absent : item ∉ offered.map Prod.fst := fun known => new (recorded.mpr known)
      refine ⟨?_, ?_⟩
      · rw [Ledger.keys_put, if_neg new, List.map_append, List.map_singleton, eraseDups_concat,
          if_neg absent, ← keys, List.take_of_length_le]
        rw [List.length_append]
        exact bound
      · intro other member
        rw [Ledger.get?_put]
        split
        · next same =>
            rw [same, lookup_concat_new absent]
        · next differs =>
            rw [Ledger.keys_put, if_neg new, List.mem_append, List.mem_singleton,
              or_iff_left differs] at member
            rw [lookup_concat (holds.offered member)]
            exact holds.values other member

/-- A contribution that is accepted is added to what has been offered, and no other is. -/
theorem Holds.intake {offered : List (String × α)} (holds : operation.Holds offered)
    {contribution : Contribution α} {turn : Turn α ε} {next : Operation α ε}
    (intake : operation.Intake contribution turn next)
    : next.Holds
        (offered
          ++ if turn.isAccepted then [(contribution.item, contribution.value)] else []) := by
  have items := intake.items
  split
  · next accepted =>
      rw [if_pos accepted] at items
      have howMany := operation.howMany_enroll contribution.item contribution.value
      refine Holds.of_items ?_ items (intake.howMany.trans howMany.symm)
      rw [enroll]
      split
      · next complete => exact holds.surplus complete _ _
      · next incomplete => exact holds.collect incomplete _ _
  · next rejected =>
      rw [if_neg rejected] at items
      rw [List.append_nil]
      exact holds.of_items items intake.howMany

end Operation

/-- Whatever a valid contribution goes to waits for as many items as the caller says. -/
theorem Contribution.howMany_of_admitTo {contribution : Contribution α} {now : Seconds}
    {stored : Option (Operation α ε)} {operation : Operation α ε}
    (admits : contribution.admitTo now stored = .ok operation)
    : contribution.howMany = some ↑operation.howMany := by
  unfold admitTo at admits
  cases given : contribution.howMany with
  | none =>
      rw [given] at admits
      cases admits
  | some number =>
      simp only [given, Option.getD_some] at admits
      split at admits
      · cases admits
      · next positive =>
          cases stored with
          | none =>
              cases admits
              rw [Int.toNat_of_nonneg (by omega)]
          | some known =>
              dsimp only at admits
              split at admits
              · cases admits
              · next same =>
                  split at admits
                  · cases admits
                  · cases admits
                    rw [Decidable.not_not.mp same]

namespace Barrier.Scene

/-- The item and its value that a step contributes to the operation of a name, if the contribution
is accepted.
-/
def accepted (name : String) (scene : Scene α ε) : Move α ε → List (String × α)
  | .enter contribution now =>
      if contribution.operation = name ∧ (scene.barrier.enter contribution now).1.isAccepted then
        [(contribution.item, contribution.value)]
      else []
  | .conclude _ _ _ | .forget _ | .evict _ _ _ => []

/-- What is stored under a name after some contributions to it were accepted. -/
structure Collects (scene : Scene α ε) (name : String) (offered : List (String × α)) : Prop where
  absent : scene.stored? name = none → offered = []
  present : ∀ operation, scene.stored? name = some operation → operation.Holds offered

variable {scene : Scene α ε} {name : String} {offered : List (String × α)}

theorem accepted_of_isRemoval {move : Move α ε} (removal : move.isRemoval)
    : scene.accepted name move = [] := by
  cases move with
  | enter _ _ | conclude _ _ _ => cases removal
  | forget _ | evict _ _ _ => rfl

theorem accepted_of_subject? {move : Move α ε} (elsewhere : scene.subject? move ≠ some name)
    : scene.accepted name move = [] := by
  cases move with
  | conclude _ _ _ | forget _ | evict _ _ _ => rfl
  | enter contribution now =>
      have differs : contribution.operation ≠ name := by
        rintro rfl
        exact elsewhere rfl
      simp only [accepted, differs, false_and, if_false]

/-- Whether a contribution is accepted is a matter of what it meets. -/
theorem accepted_enter {contribution : Contribution α} (named : contribution.operation = name)
    (now : Seconds)
    : scene.accepted name (.enter contribution now)
      = if (contribution.meet now (scene.stored? name)).1.isAccepted then
          [(contribution.item, contribution.value)]
        else [] := by
  subst named
  obtain ⟨answer, -⟩ := actsOn_enter (ε := ε) contribution now scene.barrier
  rw [accepted, answer]
  simp only [true_and]
  rfl

/-- What a contribution goes to holds what has been offered before it. -/
theorem Collects.admitTo (collects : scene.Collects name offered)
    {contribution : Contribution α} {now : Seconds} {operation : Operation α ε}
    (admits : contribution.admitTo now (scene.stored? name) = .ok operation)
    : operation.Holds offered := by
  rcases Contribution.admitTo_eq_ok admits with known | ⟨new, -, empty⟩
  · exact collects.present operation known
  · rw [collects.absent new]
    refine ⟨?_, ?_⟩
    · simp [empty]
    · simp [empty]

/-- What an operation has recorded stays in step with what is accepted. -/
theorem Collects.after (collects : scene.Collects name offered) (sound : scene.IsSound)
    {move : Move α ε} (kept : (scene.after move).removals name = scene.removals name)
    : (scene.after move).Collects name (offered ++ scene.accepted name move) := by
  cases sound.bearing name move with
  | apart elsewhere stored _ =>
      rw [accepted_of_subject? elsewhere, List.append_nil]
      exact ⟨stored ▸ collects.absent, stored ▸ collects.present⟩
  | refused named refuses stored _ =>
      rw [accepted_enter named, Contribution.meet, refuses]
      simp only [Turn.isAccepted, Bool.false_eq_true, if_false, List.append_nil]
      exact ⟨stored ▸ collects.absent, stored ▸ collects.present⟩
  | @taken contribution now operation named admits stored _ =>
      rw [accepted_enter named, Contribution.meet, admits]
      have holds := collects.admitTo admits
      refine ⟨fun absent => ?_, fun next found => ?_⟩
      · cases stored.symm.trans absent
      · cases stored.symm.trans found
        exact holds.intake ((sound.admitTo admits).intake_accept contribution now)
  | ended at_place named found running lifetime stored _ =>
      refine ⟨fun absent => ?_, fun next known => ?_⟩
      · cases stored.symm.trans absent
      · cases stored.symm.trans known
        exact (List.append_nil offered).symm ▸ (collects.present _ found).of_items rfl rfl
  | spared removal stored _ =>
      rw [accepted_of_isRemoval removal, List.append_nil]
      exact ⟨stored ▸ collects.absent, stored ▸ collects.present⟩
  | removed _ _ _ _ removals => omega

/-- What an operation has recorded is in step with what has been accepted, after any number of
steps by which it is not removed.
-/
theorem Collects.foldl_after (collects : scene.Collects name offered) (sound : scene.IsSound)
    {moves : List (Move α ε)}
    (kept : (moves.foldl Scene.after scene).removals name = scene.removals name)
    : (moves.foldl Scene.after scene).Collects name
        (offered ++ scene.along (accepted name) moves) := by
  induction moves generalizing scene offered with
  | nil =>
      rw [along, List.append_nil]
      exact collects
  | cons move moves ih =>
      obtain ⟨first, rest⟩ := sound.kept_cons kept
      rw [along, ← List.append_assoc]
      exact ih (collects.after sound first) (sound.after move) rest

/-- As long as an operation is not removed, it waits for the same number of items, and once they
are all there they stay what they are.
-/
theorem IsSound.stored?_foldl_after (sound : scene.IsSound) {operation : Operation α ε}
    (found : scene.stored? name = some operation) {moves : List (Move α ε)}
    (kept : (moves.foldl Scene.after scene).removals name = scene.removals name)
    : ∃ later, (moves.foldl Scene.after scene).stored? name = some later
        ∧ later.howMany = operation.howMany
        ∧ (operation.isComplete → later.items = operation.items) := by
  induction moves generalizing scene operation with
  | nil => exact ⟨operation, found, rfl, fun _ => rfl⟩
  | cons move moves ih =>
      obtain ⟨first, rest⟩ := sound.kept_cons kept
      cases sound.bearing name move with
      | apart _ stored _ | refused _ _ stored _ | spared _ stored _ =>
          exact ih (sound.after _) (stored.trans found) rest
      | @taken contribution now known named admits stored _ =>
          have same : known = operation := by
            rcases Contribution.admitTo_eq_ok admits with known | ⟨new, -⟩
            · exact Option.some.inj (known.symm.trans found)
            · cases new.symm.trans found
          subst same
          obtain ⟨later, reached, howMany, items⟩ := ih (sound.after _) stored rest
          have intake := (sound.operations name known found).intake_accept contribution now
          refine ⟨later, reached, howMany.trans intake.howMany, fun complete => ?_⟩
          obtain ⟨same, number, -⟩ := Operation.accept_of_complete complete contribution now
          rw [items, same]
          simpa only [Operation.isComplete_iff, same, number] using complete
      | ended at_place named known running lifetime stored _ =>
          cases found.symm.trans known
          obtain ⟨later, reached, howMany, items⟩ := ih (sound.after _) stored rest
          exact ⟨later, reached, howMany, items⟩
      | removed _ _ _ _ removals => omega

/-- A caller who is accepted has the number of items that the operation waits for, and has to wait
exactly if there are fewer of them still.
-/
theorem IsSound.waiting_iff (sound : scene.IsSound) {contribution : Contribution α}
    (named : contribution.operation = name) {now : Seconds}
    (accepted : (scene.barrier.enter contribution now).1.isAccepted)
    : ∃ operation, (scene.after (.enter contribution now)).stored? name = some operation
        ∧ contribution.howMany = some ↑operation.howMany
        ∧ ((scene.barrier.enter contribution now).1 = .answered .waiting
            ↔ operation.items.size < operation.howMany) := by
  subst named
  obtain ⟨answer, -⟩ := actsOn_enter (ε := ε) contribution now scene.barrier
  rw [answer] at accepted ⊢
  cases sound.bearing contribution.operation (.enter contribution now) with
  | apart elsewhere => exact absurd rfl elsewhere
  | refused _ refuses =>
      have known : contribution.admitTo now
          (scene.barrier.operations.get? contribution.operation) = .error _ := refuses
      rw [Contribution.meet, known] at accepted
      cases accepted
  | @taken _ _ operation _ admits stored _ =>
      have known : contribution.admitTo now
          (scene.barrier.operations.get? contribution.operation) = .ok operation := admits
      rw [Contribution.meet, known] at accepted ⊢
      have intake := (sound.admitTo admits).intake_accept contribution now
      refine ⟨_, stored, ?_, intake.waits accepted⟩
      rw [intake.howMany]
      exact Contribution.howMany_of_admitTo admits
  | spared removal | removed removal => cases removal

/-- Once all items are there, nobody has to wait or is late. -/
theorem enter_of_isComplete {operation : Operation α ε}
    (found : scene.stored? name = some operation) (complete : operation.isComplete)
    {contribution : Contribution α} (named : contribution.operation = name) (now : Seconds)
    : (scene.barrier.enter contribution now).1 ≠ .answered .waiting
      ∧ (scene.barrier.enter contribution now).1 ≠ .answered .collectionTimeout := by
  subst named
  obtain ⟨answer, -⟩ := actsOn_enter (ε := ε) contribution now scene.barrier
  have known : scene.barrier.operations.get? contribution.operation = some operation := found
  rw [answer, known, Contribution.meet]
  cases admits : contribution.admitTo now (some operation) with
  | error refusal => simp
  | ok other =>
      rcases Contribution.admitTo_eq_ok admits with same | ⟨new, -⟩
      · cases same
        obtain ⟨-, -, noWait, inTime⟩ := Operation.accept_of_complete complete contribution now
        exact ⟨noWait, inTime⟩
      · cases new

/-- From the start of an operation to its removal, what it has recorded are the first distinct
items that were accepted, as many as it waits for or all so far, each with the value that came
first. Every run gets all of them. A caller who is accepted has to wait exactly if there are
still fewer. Once they are all there they stay what they are, and nobody has to wait or is late.
-/
theorem collects_first (past moves : List (Move α ε)) (name : String)
    (fresh : (reached past).stored? name = none)
    (kept : (reached (past ++ moves)).removals name = (reached past).removals name)
    : let scene := reached (past ++ moves)
      let offered := (reached past).along (accepted name) moves
      (scene.stored? name = none → offered = [])
      ∧ (∀ operation, scene.stored? name = some operation
          → operation.items.keys = (offered.map Prod.fst).eraseDups.take operation.howMany
            ∧ (∀ item ∈ operation.items.keys, operation.items.get? item = offered.lookup item)
            ∧ ∀ run ∈ scene.runs, run.operation = name
                → run.items = operation.items ∧ run.items.size = operation.howMany)
      ∧ (∀ contribution now, contribution.operation = name
          → let turn := (scene.barrier.enter contribution now).1
            let next := scene.after (.enter contribution now)
            (∀ items, turn = .mustRun items
              → ∃ operation, next.stored? name = some operation
                  ∧ operation.items = items
                  ∧ items.size = operation.howMany)
            ∧ (turn.isAccepted
                → ∃ operation, next.stored? name = some operation
                    ∧ contribution.howMany = some ↑operation.howMany
                    ∧ (turn = .answered .waiting ↔ operation.items.size < operation.howMany)))
      ∧ ∀ operation rest, scene.stored? name = some operation
          → let later := reached (past ++ moves ++ rest)
            later.removals name = scene.removals name
            → ∃ next, later.stored? name = some next
                ∧ next.howMany = operation.howMany
                ∧ (operation.howMany ≤ operation.items.size
                    → next.items = operation.items
                      ∧ ∀ contribution now, contribution.operation = name
                          → (later.barrier.enter contribution now).1 ≠ .answered .waiting
                            ∧ (later.barrier.enter contribution now).1
                                ≠ .answered .collectionTimeout) := by
  intro scene offered
  have sound : scene.IsSound := isSound_reached (past ++ moves)
  have collects : scene.Collects name offered := by
    have start : (reached past).Collects name [] := by
      refine ⟨fun _ => rfl, fun operation found => ?_⟩
      cases fresh.symm.trans found
    rw [reached_append] at kept
    have reaches : scene = moves.foldl after (reached past) := reached_append past moves
    rw [reaches]
    exact start.foldl_after (isSound_reached past) kept
  refine ⟨collects.absent, ?_, ?_, ?_⟩
  · intro operation found
    have holds := collects.present operation found
    refine ⟨holds.keys, holds.values, ?_⟩
    rintro run member rfl
    obtain ⟨known, stored, running, items, -⟩ := sound.atWork run member
    cases stored.symm.trans found
    refine ⟨items.symm, ?_⟩
    rw [← items]
    exact (sound.operations _ _ found).full (Phase.ne_idle_of_isRunning running)
  · rintro contribution now rfl
    refine ⟨?_, sound.waiting_iff rfl⟩
    intro items starts
    obtain ⟨operation, found, same, full⟩ :=
      sound.started_full (Prod.ext starts rfl : scene.barrier.enter contribution now = (_, _))
    have barrier := (scene.after_enter contribution now).1
    refine ⟨operation, ?_, same, ?_⟩
    · rw [stored?, barrier]
      exact found
    · rwa [Ledger.length_keys] at full
  · intro operation rest found later same
    have reaches : later = rest.foldl after scene := reached_append _ rest
    rw [reaches] at same ⊢
    obtain ⟨next, reached, howMany, items⟩ := sound.stored?_foldl_after found same
    refine ⟨next, reached, howMany, fun full => ?_⟩
    have all := items (Operation.isComplete_iff.mpr full)
    have complete : next.isComplete := by
      rw [Operation.isComplete_iff, howMany, all]
      exact full
    exact ⟨all, fun contribution now named => enter_of_isComplete reached complete named now⟩

/-- A name is used again for two items. One caller has the wrong number and is turned down, and the
first item comes twice, but only its first value counts; both items are there after the last call.
-/
theorem collects_first_reused
    : let contribution (item : String) (howMany : Int) (value : Nat) : Contribution Nat :=
        { operation := "g", item, howMany := some howMany, value, client := 0 }
      let past : List (Move Nat Nat) :=
        [.enter (contribution "c" 1 9) 0, .conclude 0 (.returned 5) 1, .forget "g"]
      let moves : List (Move Nat Nat) :=
        [.enter (contribution "a" 2 1) 2, .enter (contribution "b" 3 7) 3,
          .enter (contribution "a" 2 4) 4, .enter (contribution "b" 2 6) 5]
      (reached past).stored? "g" = none
      ∧ (reached (past ++ moves)).removals "g" = (reached past).removals "g"
      ∧ (reached past).along (accepted "g") moves = [("a", 1), ("a", 4), ("b", 6)]
      ∧ ∃ operation, (reached (past ++ moves)).stored? "g" = some operation
          ∧ operation.items.keys = ["a", "b"]
          ∧ operation.items.get? "a" = some 1
          ∧ operation.items.get? "b" = some 6
          ∧ ((reached (past ++ moves)).barrier.enter (contribution "d" 2 8) 6).1
              ≠ .answered .waiting := by
  intro contribution past moves
  have fresh : (reached past).stored? "g" = none :=
    Option.isNone_iff_eq_none.mp (by decide +kernel)
  have kept : (reached (past ++ moves)).removals "g" = (reached past).removals "g" := by
    decide +kernel
  have offered : (reached past).along (accepted "g") moves = [("a", 1), ("a", 4), ("b", 6)] := by
    decide +kernel
  obtain ⟨-, records, -, stays⟩ := collects_first past moves "g" fresh kept
  have waitsFor : ((reached (past ++ moves)).stored? "g").map Operation.howMany = some 2 := by
    decide +kernel
  obtain ⟨operation, found, howMany⟩ := Option.map_eq_some_iff.mp waitsFor
  obtain ⟨keys, values, -⟩ := records operation found
  rw [offered, howMany] at keys
  rw [offered] at values
  have listed : operation.items.keys = ["a", "b"] := keys
  refine ⟨fresh, kept, offered, operation, found, listed, ?_, ?_, ?_⟩
  · exact values "a" (by simp [listed])
  · exact values "b" (by simp [listed])
  · have later := stays operation [] found
    rw [List.append_nil] at later
    obtain ⟨_, -, -, full⟩ := later rfl
    have size : operation.items.size = 2 := by
      rw [← Ledger.length_keys, listed]
      rfl
    exact ((full (by omega)).2 _ _ rfl).1

end Barrier.Scene

end DiscVolume
