import DiscVolume.Barrier.Call
import DiscVolume.Proofs.Barrier.ExactlyOnce

/-! The requests of a session are steps of the callers of its barrier. A request that calls a run
function is a step, the steps of the requests that the run function makes, and the end of the
run, so whatever is true of all scenes that callers can reach is true of sessions.
-/

namespace DiscVolume

namespace Barrier.Scene

/-- Steps of callers lead from a scene to another, and end just the runs that they start. -/
def Leads (scene next : Scene α ε) : Prop :=
  (∃ moves : List (Move α ε), moves.foldl after scene = next) ∧ next.runs = scene.runs

theorem Leads.refl (scene : Scene α ε) : scene.Leads scene := ⟨⟨[], rfl⟩, rfl⟩

theorem Leads.trans {scene middle next : Scene α ε} (first : scene.Leads middle)
    (second : middle.Leads next)
    : scene.Leads next := by
  obtain ⟨⟨before, reaches⟩, runs⟩ := first
  obtain ⟨⟨rest, follows⟩, same⟩ := second
  refine ⟨⟨before ++ rest, ?_⟩, same.trans runs⟩
  rw [List.foldl_append, reaches, follows]

/-- A step that neither starts nor ends a run leads to the scene after it. -/
theorem Leads.step {scene : Scene α ε} {move : Move α ε}
    (runs : (scene.after move).runs = scene.runs)
    : scene.Leads (scene.after move) :=
  ⟨⟨[move], rfl⟩, runs⟩

/-- What happens while a run is at work stays between its start and its end. -/
theorem Leads.enclose {scene next : Scene α ε} {start stop : Move α ε} {run : Run α}
    (starts : (scene.after start).runs = run :: scene.runs)
    (inner : (scene.after start).Leads next) (ends : (next.after stop).runs = next.runs.eraseIdx 0)
    : scene.Leads (next.after stop) := by
  obtain ⟨⟨moves, reaches⟩, runs⟩ := inner
  refine ⟨⟨start :: moves ++ [stop], ?_⟩, ?_⟩
  · rw [List.foldl_append]
    exact congrArg (after · stop) reaches
  · rw [ends, runs, starts]
    rfl

end Barrier.Scene

namespace Session

open Barrier Barrier.Scene

/-- Whatever a request does to the barrier is done by steps of callers. -/
def IsStepwise (request : Calling α ε β) : Prop :=
  ∀ session outcome later, request session = some (outcome, later)
    → ∀ scene : Scene α ε, scene.barrier = session.barrier
      → ∃ next, scene.Leads next ∧ next.barrier = later.barrier

/-- A request that leaves the barrier alone takes no step. -/
theorem IsStepwise.of_untouched {request : Calling α ε β}
    (untouched : ∀ session outcome later, request session = some (outcome, later)
      → later.barrier = session.barrier)
    : IsStepwise request := by
  intro session outcome later performed scene shown
  exact ⟨scene, .refl scene, shown.trans (untouched session outcome later performed).symm⟩

theorem IsStepwise.pure (outcome : β) : IsStepwise (pure outcome : Calling α ε β) :=
  .of_untouched fun _ _ _ performed => by cases performed; rfl

/-- A request that is performed is performed up to every point of it. -/
theorem bind_eq_some {request : Calling α ε β} {next : β → Calling α ε γ}
    {session later : Session α ε} {outcome : γ}
    (performed : (request >>= next) session = some (outcome, later))
    : ∃ found middle, request session = some (found, middle)
        ∧ next found middle = some (outcome, later) := by
  obtain ⟨⟨found, middle⟩, before, rest⟩ := Option.bind_eq_some_iff.mp performed
  exact ⟨found, middle, before, rest⟩

/-- Requests one after the other take their steps one after the other. -/
theorem IsStepwise.bind {request : Calling α ε β} {next : β → Calling α ε γ}
    (first : IsStepwise request) (others : ∀ outcome, IsStepwise (next outcome))
    : IsStepwise (request >>= next) := by
  intro session outcome later performed scene shown
  obtain ⟨found, middle, before, rest⟩ := bind_eq_some performed
  obtain ⟨reached, leads, same⟩ := first session found middle before scene shown
  obtain ⟨final, goesOn, ended⟩ := others found middle outcome later rest reached same
  exact ⟨final, leads.trans goesOn, ended⟩

/-- Taking a lock changes neither the barrier nor the time. -/
theorem lock_eq_some {key : String} {session later : Session α ε} {outcome : Unit}
    (performed : lock key session = some (outcome, later))
    : later.barrier = session.barrier ∧ later.now = session.now := by
  obtain ⟨_, _, same⟩ := Option.bind_eq_some_iff.mp performed
  cases same
  exact ⟨rfl, rfl⟩

/-- Giving a lock up changes neither the barrier nor the time. -/
theorem unlock_eq_some {key : String} {session later : Session α ε} {outcome : Unit}
    (performed : unlock key session = some (outcome, later))
    : later.barrier = session.barrier ∧ later.now = session.now := by
  obtain ⟨_, _, same⟩ := Option.bind_eq_some_iff.mp performed
  cases same
  exact ⟨rfl, rfl⟩

/-- What is done with a lock held is done to the barrier as it is, at the time that it is. -/
theorem holding_eq_some {key : String} {step : Seconds → Barrier α ε → β × Barrier α ε}
    {session later : Session α ε} {outcome : β}
    (performed : holding key step session = some (outcome, later))
    : step session.now session.barrier = (outcome, later.barrier) := by
  obtain ⟨_, held, locked, performed⟩ := bind_eq_some performed
  obtain ⟨_, _, got, performed⟩ := bind_eq_some performed
  cases got
  obtain ⟨_, _, put, performed⟩ := bind_eq_some performed
  cases put
  obtain ⟨_, _, unlocked, performed⟩ := bind_eq_some performed
  cases performed
  obtain ⟨barrier, now⟩ := lock_eq_some locked
  rw [(unlock_eq_some unlocked).1, ← barrier, ← now]

/-- A step that is taken with a lock held and leaves the runs at work alone. -/
theorem IsStepwise.holding {key : String} {step : Seconds → Barrier α ε → β × Barrier α ε}
    (move : Seconds → Move α ε)
    (matched : ∀ (scene : Scene α ε) now,
      (scene.after (move now)).barrier = (step now scene.barrier).2
        ∧ (scene.after (move now)).runs = scene.runs)
    : IsStepwise (holding key step) := by
  intro session outcome later performed scene shown
  have stepped := holding_eq_some performed
  rw [← shown] at stepped
  obtain ⟨barrier, runs⟩ := matched scene session.now
  exact ⟨_, .step runs, barrier.trans (congrArg Prod.snd stepped)⟩

theorem IsStepwise.discard (key : String) : IsStepwise (discard key : Calling α ε Unit) :=
  .of_untouched fun _ _ _ performed => by cases performed; rfl

theorem IsStepwise.elapse (interval : Seconds)
    : IsStepwise (elapse interval : Calling α ε (Except ClockFault Unit)) := by
  refine .of_untouched fun session outcome later performed => ?_
  unfold Session.elapse at performed
  obtain ⟨_, _, got, performed⟩ := bind_eq_some performed
  cases got
  cases clock : session.now.plus interval with
  | error fault =>
      simp only [clock] at performed
      cases performed
      rfl
  | ok now =>
      simp only [clock] at performed
      cases performed
      rfl

/-- A contribution is one step if it is answered. If it starts a run, the steps of the run
function follow, and then the end of the run, which is the last started of those at work.
-/
theorem IsStepwise.offer {contribution : Contribution α}
    {work : Ledger α → Calling α ε (Ending α ε × β)} (working : ∀ items, IsStepwise (work items))
    : IsStepwise (offer contribution work) := by
  intro session outcome later performed scene shown
  obtain ⟨turn, entered, entering, performed⟩ := bind_eq_some performed
  have enters := holding_eq_some entering
  rw [← shown] at enters
  let start : Move α ε := .enter contribution session.now
  cases turn with
  | answered response =>
      cases performed
      have starts : scene.after start = { scene with barrier := later.barrier } := by
        simp only [start, after, enters]
      exact ⟨scene.after start, .step (by rw [starts]), by rw [starts]⟩
  | untimed fault =>
      cases performed
      have starts : scene.after start = { scene with barrier := later.barrier } := by
        simp only [start, after, enters]
      exact ⟨scene.after start, .step (by rw [starts]), by rw [starts]⟩
  | mustRun items =>
      obtain ⟨⟨ending, extra⟩, worked, works, performed⟩ := bind_eq_some performed
      obtain ⟨attempt, concluded, concluding, performed⟩ := bind_eq_some performed
      cases performed
      let name := contribution.operation
      let run : Run α := ⟨name, scene.removals name, items⟩
      have starts : scene.after start
          = { scene with barrier := entered.barrier, runs := run :: scene.runs } := by
        simp only [start, after, enters, run, name]
      obtain ⟨next, inner, same⟩ :=
        working items entered (ending, extra) worked works (scene.after start) (by rw [starts])
      -- All runs that were started after this one have ended before it does.
      have at_work : next.runs[0]? = some run := by
        rw [inner.2, starts]
        rfl
      have concludes := holding_eq_some concluding
      rw [← same] at concludes
      have ends : next.after (.conclude 0 ending worked.now)
          = { next with
              barrier := later.barrier
              runs := next.runs.eraseIdx 0
              completions :=
                if ending.completesRun then (run.operation, run.lifetime) :: next.completions
                else next.completions } := by
        simp only [after, at_work]
        rw [concludes]
      exact ⟨_, .enclose (by rw [starts]) inner (by rw [ends]), by rw [ends]⟩

/-- Attempts take their steps one after the other, with those of the pauses in between. -/
theorem IsStepwise.persist {attempt : Calling α ε (Attempt α ε × Option β)} {interval : Seconds}
    (attempting : IsStepwise attempt) (patience : Nat) (pauses : List (Calling α ε (List γ)))
    (pausing : ∀ pause ∈ pauses, IsStepwise pause)
    : IsStepwise (persist attempt interval pauses patience) := by
  induction patience generalizing pauses with
  | zero =>
      unfold Session.persist
      refine attempting.bind fun (result, work) => ?_
      dsimp only
      split <;> exact .pure _
  | succ patience ih =>
      unfold Session.persist
      refine attempting.bind fun (result, work) => ?_
      dsimp only
      split
      · exact .pure _
      · refine (IsStepwise.elapse interval).bind fun passed => ?_
        cases passed with
        | error fault => exact .pure _
        | ok _ =>
            have next : IsStepwise (pauses.headD (Pure.pure [])) := by
              cases pauses with
              | nil => exact .pure []
              | cons pause others => exact pausing pause List.mem_cons_self
            refine next.bind fun pause => ?_
            refine (ih pauses.tail fun other member => ?_).bind fun _ => .pure _
            exact pausing other (List.mem_of_mem_tail member)

theorem IsStepwise.forget (name : String)
    : IsStepwise (forget name : Calling α ε (Except Refusal Bool)) := by
  unfold Session.forget
  refine IsStepwise.bind (.holding (fun _ => .forget name) fun scene now => ?_) fun outcome => ?_
  · cases forgets : scene.barrier.forget name with
    | error refusal => simp only [after, forgets, and_self]
    | ok answer =>
        obtain ⟨existed, rest⟩ := answer
        cases existed <;> simp only [after, remove, forgets, and_self]
  · cases outcome with
    | ok existed => exact (IsStepwise.discard name).bind fun _ => .pure _
    | error refusal => exact .pure _

/-- An eviction is a step for each of the operations that it looks at. -/
theorem IsStepwise.evictAmong (age : Seconds) (names : List String)
    : IsStepwise (evictAmong age names : Calling α ε (Except ClockFault (List String))) := by
  induction names with
  | nil => exact .pure _
  | cons name others ih =>
      unfold Session.evictAmong
      refine IsStepwise.bind (.holding (.evict name age) fun scene now => ?_) fun outcome => ?_
      · cases evicts : scene.barrier.evict name age now with
        | mk outcome rest =>
            cases outcome with
            | error fault => simp only [after, evicts, and_self]
            | ok dropped => cases dropped <;> simp only [after, remove, evicts, and_self]
      · cases outcome with
        | error fault => exact .pure _
        | ok dropped =>
            cases dropped with
            | false => exact ih
            | true => exact (IsStepwise.discard name).bind fun _ => ih.bind fun _ => .pure _

theorem IsStepwise.evict (age : Seconds)
    : IsStepwise (evict age : Calling α ε (Except ClockFault (List String))) :=
  IsStepwise.bind (.of_untouched fun _ _ _ performed => by cases performed; rfl)
    fun _ => .evictAmong age _

end Session

namespace Call

open Barrier Session

theorem isStepwise_report (answer : Answer α ε) (run : Option (Ledger α × List (Report α ε)))
    (pauses : List (List (Report α ε)))
    : IsStepwise (answer.report run pauses) :=
  .of_untouched fun _ _ _ performed => by cases performed; rfl

mutual

/-- Every call is made of steps of callers, those of its run function and its pauses included. -/
theorem isStepwise_perform : (call : Call α ε) → IsStepwise call.perform
  | .offer contribution during ending => by
      unfold Call.perform
      refine IsStepwise.bind (.offer fun items => ?_) fun _ => isStepwise_report _ _ _
      exact (isStepwise_performAll during).bind fun _ => .pure _
  | .persist contribution during ending interval pauses patience => by
      unfold Call.perform
      have attempting : IsStepwise (Session.offer contribution fun items => do
          let reports ← Call.performAll during
          return (ending items, reports)) :=
        .offer fun items => (isStepwise_performAll during).bind fun _ => .pure _
      exact (attempting.persist patience _ (isStepwise_performEach pauses)).bind
        fun _ => isStepwise_report _ _ _
  | .setClock now => by
      unfold Call.perform
      refine IsStepwise.bind ?_ fun _ => isStepwise_report _ _ _
      exact .of_untouched fun _ _ _ performed => by cases performed; rfl
  | .forget operation => by
      unfold Call.perform
      exact (IsStepwise.forget operation).bind fun _ => isStepwise_report _ _ _
  | .evict age => by
      unfold Call.perform
      exact (IsStepwise.evict age).bind fun _ => isStepwise_report _ _ _

theorem isStepwise_performAll : (calls : List (Call α ε)) → IsStepwise (Call.performAll calls)
  | [] => by
      unfold Call.performAll
      exact .pure _
  | call :: others => by
      unfold Call.performAll
      exact (isStepwise_perform call).bind fun _ =>
        (isStepwise_performAll others).bind fun _ => .pure _

theorem isStepwise_performEach
    : (groups : List (List (Call α ε))) → ∀ request ∈ Call.performEach groups, IsStepwise request
  | [], _, member => by
      unfold Call.performEach at member
      cases member
  | calls :: others, request, member => by
      unfold Call.performEach at member
      rcases List.mem_cons.mp member with rfl | member
      · exact isStepwise_performAll calls
      · exact isStepwise_performEach others request member

end

/-- Calls made of a session with a new barrier bring it to a scene that callers can reach step by
step, with no run left at work.
-/
theorem reached_of_performAll {calls : List (Call α ε)} {session later : Session α ε}
    {reports : List (Report α ε)} (fresh : session.barrier = {})
    (performed : Call.performAll calls session = some (reports, later))
    : ∃ moves : List (Move α ε), (Scene.reached moves).barrier = later.barrier
        ∧ (Scene.reached moves).runs = [] := by
  obtain ⟨next, ⟨⟨moves, reaches⟩, runs⟩, same⟩ :=
    isStepwise_performAll calls session reports later performed {} fresh.symm
  exact ⟨moves, (congrArg Scene.barrier reaches).trans same,
    (congrArg Scene.runs reaches).trans runs⟩

/-- When the calls made of a session are done, no operation is left running, however the run
functions ended and whatever they and other callers did in the meantime.
-/
theorem not_isRunning_of_performAll {calls : List (Call α ε)} {session later : Session α ε}
    {reports : List (Report α ε)} (fresh : session.barrier = {})
    (performed : Call.performAll calls session = some (reports, later)) {name : String}
    {operation : Operation α ε} (found : later.barrier.operations.get? name = some operation)
    : ¬ operation.phase.isRunning := by
  intro running
  obtain ⟨moves, same, idle⟩ := reached_of_performAll fresh performed
  have sound := Scene.isSound_reached moves
  have stored : (Scene.reached moves).stored? name = some operation := by
    rw [Scene.stored?, same, found]
  obtain ⟨run, member, -⟩ := sound.attended name operation stored running
  rw [idle] at member
  cases member

end Call

end DiscVolume
