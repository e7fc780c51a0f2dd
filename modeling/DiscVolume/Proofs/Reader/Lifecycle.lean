import DiscVolume.Proofs.Reader.Verdicts
import Mathlib.Data.List.Induction

/-! When a reader is open. Calls that open or close it turn it from one to the other where they
succeed; all other calls, and all that fail, leave it as it is. While it is closed, whatever needs
a volume is turned down, and while it is open no other image is opened.
-/

namespace DiscVolume

open Access Sequencing

namespace Reader

variable {reader : Reader σ}

/-- Looking for the open volume leaves the reader as it is. -/
theorem opened_keeps (reader : Reader σ)
    : FailsOnly (opened : Using σ (Volume σ)) (fun state => state.1 = reader) (fun _ => True) := by
  intro state kept
  cases held : state.1.volume with
  | none =>
      rw [opened_of_empty held]
      exact ⟨kept, trivial⟩
  | some volume =>
      rw [opened_of_held held]
      exact kept

/-- What is done on the medium leaves the reader as it is. -/
theorem onMedium_keeps (step : Access σ α) (reader : Reader σ)
    : FailsOnly (onMedium step) (fun state => state.1 = reader) (fun _ => True) := by
  rintro ⟨other, medium⟩ kept
  rw [onMedium]
  cases step medium with
  | ok value after => exact kept
  | error failure after => exact ⟨kept, trivial⟩

/-- What can be asked of the open volume leaves the reader as it is. -/
theorem onOpened_keeps {others : Volume σ → Using σ α}
    (rest : ∀ volume, FailsOnly (others volume) (fun state => state.1 = reader) (fun _ => True))
    : FailsOnly (opened >>= others) (fun state => state.1 = reader) (fun _ => True) :=
  (opened_keeps reader).bind rest

end Reader

namespace Visit

/-- Whether a call opens or closes the reader where it succeeds. -/
def Call.turns : Call σ → Bool
  | .openImage _ | .close => true
  | _ => false

/-- Whether a call opens the reader where it succeeds. -/
def Call.opens : Call σ → Bool
  | .openImage _ => true
  | _ => false

/-- Whether a visit gets an answer to a call. -/
def succeeds (visit : Visit σ) (call : Call σ) : Bool :=
  match perform call visit with
  | .ok _ _ => true
  | .error _ _ => false

/-- The calls that succeed, one after the other. -/
def successes (visit : Visit σ) : List (Call σ) → List (Call σ)
  | [] => []
  | call :: others =>
      if visit.succeeds call then call :: (visit.after call).successes others
      else (visit.after call).successes others

variable {visit : Visit σ} {reader : Reader σ} {call : Call σ}

-----------------------------------------------------------------------------------------
-- Calls that leave the reader as it is
-----------------------------------------------------------------------------------------

theorem onReader_keeps {step : Using σ α}
    (keeps : FailsOnly step (fun state => state.1 = reader) (fun _ => True))
    : FailsOnly (onReader step) (fun visit => visit.reader = reader) (fun _ => True) :=
  fun visit kept => onReader_of_ends (keeps (visit.reader, visit.medium) kept)

theorem onStream_keeps (place : Nat) (step : Playing σ FileStream.Reply) (reader : Reader σ)
    : FailsOnly (onStream place step) (fun visit => visit.reader = reader) (fun _ => True) := by
  intro visit kept
  rw [onStream]
  cases visit.streams[place]? with
  | none => exact kept
  | some stream =>
      dsimp only
      cases step (stream, visit.medium) with
      | ok reply after => exact kept
      | error failure after => exact ⟨kept, trivial⟩

/-- Calls that neither open nor close leave the reader as it is. -/
theorem perform_keeps (call : Call σ) (stays : call.turns = false) (reader : Reader σ)
    : FailsOnly (perform call) (fun visit => visit.reader = reader) (fun _ => True) := by
  cases call with
  | openImage supply => cases stays
  | close => cases stays
  | root =>
      exact (onReader_keeps (Reader.onOpened_keeps fun _ => Reader.onMedium_keeps _ _)).bind
        (fun _ => .pure _)
  | readDirectory parent =>
      exact (onReader_keeps (Reader.onOpened_keeps fun _ => Reader.onMedium_keeps _ _)).bind
        (fun _ => .pure _)
  | openFile entry =>
      refine FailsOnly.bind (onReader_keeps (Reader.onOpened_keeps fun volume => ?_)) ?_
      · split
        · exact .pure _
        · exact .throw trivial
      · exact fun stream => FailsOnly.bind (fun _ kept => kept) (fun _ => .pure _)
  | lookup path =>
      exact (onReader_keeps (Reader.onOpened_keeps fun _ => Reader.onMedium_keeps _ _)).bind
        (fun _ => .pure _)
  | absoluteSector block =>
      exact (onReader_keeps (Reader.onOpened_keeps fun _ => .pure _)).bind (fun _ => .pure _)
  | absoluteOffset block =>
      exact (onReader_keeps ((Reader.onOpened_keeps fun _ => .pure _).bind fun _ => .pure _)).bind
        (fun _ => .pure _)
  | play place request => exact onStream_keeps place _ reader

theorem reader_after (stays : call.turns = false) : (visit.after call).reader = visit.reader :=
  after_of_ends (perform_keeps call stays visit.reader visit rfl)

-----------------------------------------------------------------------------------------
-- Calls that are turned down
-----------------------------------------------------------------------------------------

/-- While the reader is closed, what starts with the open volume fails at once. -/
theorem onOpened_of_closed {others : Volume σ → Using σ α} {rest : α → Access (Visit σ) Answer}
    (isClosed : visit.reader.volume = none)
    : (onReader (Reader.opened >>= others) >>= rest) visit = .error (.misused .notOpen) visit :=
  bind_of_error (onReader_of_error (bind_of_error (Reader.opened_of_empty isClosed)))

/-- While the reader is closed, whatever needs a volume fails and nothing is touched. -/
theorem perform_of_closed (isClosed : visit.reader.volume = none) (needs : call.needsVolume = true)
    : perform call visit = .error (.misused .notOpen) visit := by
  cases call with
  | openImage supply => cases needs
  | play place request => cases needs
  | absoluteOffset block =>
      rw [perform, Reader.absoluteOffset, Reader.absoluteSector, bind_assoc]
      exact onOpened_of_closed isClosed
  | _ => exact onOpened_of_closed isClosed

/-- While the reader is open, no other image is opened and nothing is touched. -/
theorem perform_openImage_of_open {volume : Volume σ} (held : visit.reader.volume = some volume)
    (supply : Supply σ)
    : perform (.openImage supply) visit = .error (.misused .alreadyOpen) visit := by
  have refused : Reader.openImage supply (visit.reader, visit.medium)
      = .error (.misused .alreadyOpen) (visit.reader, visit.medium) := by
    refine (bind_of_ok rfl).trans ?_
    rw [held]
    rfl
  exact bind_of_error (onReader_of_error refused)

-----------------------------------------------------------------------------------------
-- Calls that open or close
-----------------------------------------------------------------------------------------

/-- A closed reader that opens an image is open if that succeeds, and otherwise closed. -/
theorem isSome_after_openImage (isClosed : visit.reader.volume = none) (supply : Supply σ)
    : (visit.after (.openImage supply)).reader.volume.isSome
      = visit.succeeds (.openImage supply) := by
  have begun : Reader.openImage supply (visit.reader, visit.medium)
      = (Reader.onMedium (Volume.ofSupply supply) >>= fun volume => Reader.hold (some volume))
        (visit.reader, visit.medium) := by
    refine (bind_of_ok rfl).trans ?_
    rw [isClosed]
  cases opened : Volume.ofSupply supply visit.medium with
  | ok volume medium =>
      have found : Reader.onMedium (Volume.ofSupply supply) (visit.reader, visit.medium)
          = .ok volume (visit.reader, medium) := by
        rw [Reader.onMedium, opened]
      have succeeded : perform (.openImage supply) visit
          = .ok .nothing { visit with reader := { volume := some volume }, medium } :=
        bind_of_ok (onReader_of_ok (begun.trans (bind_of_ok found)))
      rw [after, succeeds, succeeded]
      rfl
  | error failure medium =>
      have missed : Reader.onMedium (Volume.ofSupply supply) (visit.reader, visit.medium)
          = .error failure (visit.reader, medium) := by
        rw [Reader.onMedium, opened]
      have failed : perform (.openImage supply) visit = .error failure { visit with medium } :=
        bind_of_error (onReader_of_error (begun.trans (bind_of_error missed)))
      rw [after, succeeds, failed]
      simp [isClosed]

/-- An open reader is closed when it is asked to. -/
theorem perform_close_of_open {volume : Volume σ} (held : visit.reader.volume = some volume)
    : perform .close visit = .ok .nothing { visit with reader := {} } := by
  have closed : Reader.close (visit.reader, visit.medium) = .ok () ({}, visit.medium) := by
    rw [Reader.close, bind_of_ok (Reader.opened_of_held held)]
    rfl
  exact bind_of_ok (onReader_of_ok closed)

/-- What one call makes of a reader: where it succeeds in opening or closing, that is what the
reader is from then on, and otherwise it is what it was before.
-/
theorem isSome_after (visit : Visit σ) (call : Call σ)
    : (visit.after call).reader.volume.isSome
      = if visit.succeeds call && call.turns then call.opens else visit.reader.volume.isSome := by
  cases turns : call.turns with
  | false => simp [reader_after turns]
  | true =>
      cases held : visit.reader.volume with
      | some volume =>
          cases call with
          | openImage supply =>
              rw [after, succeeds, perform_openImage_of_open held]
              simp [held]
          | close =>
              rw [after, succeeds, perform_close_of_open held]
              rfl
          | _ => cases turns
      | none =>
          cases call with
          | openImage supply =>
              rw [isSome_after_openImage held]
              cases visit.succeeds (.openImage supply) <;> rfl
          | close =>
              rw [after, succeeds, perform_of_closed held rfl]
              simp [held]
          | _ => cases turns

/-- The calls that succeed in a longer visit are those of the shorter one and perhaps the last. -/
theorem successes_append (visit : Visit σ) (calls : List (Call σ)) (call : Call σ)
    : visit.successes (calls ++ [call])
      = visit.successes calls ++ if (visit.reached calls).succeeds call then [call] else [] := by
  induction calls generalizing visit with
  | nil =>
      rw [List.nil_append, successes, successes, reached, List.foldl_nil, List.nil_append]
      rfl
  | cons first others ih =>
      rw [List.cons_append, successes, successes, ih, reached, reached, List.foldl_cons]
      split <;> rfl

/-- A reader is open just if opening it was the last that succeeded in opening or closing it, by
induction on the calls.
-/
theorem isSome_reached (medium : σ) (calls : List (Call σ))
    : (reached { medium } calls).reader.volume.isSome
      = (((successes { medium } calls).filter Call.turns).getLast?.any Call.opens) := by
  induction calls using List.reverseRecOn with
  | nil => rfl
  | append_singleton calls call ih =>
      have last : reached { medium } (calls ++ [call]) = (reached { medium } calls).after call := by
        rw [reached, List.foldl_append]
        rfl
      rw [last, isSome_after, successes_append, List.filter_append, ih]
      cases succeeded : (reached { medium } calls).succeeds call with
      | false => simp
      | true => cases turns : call.turns <;> simp [turns]

end Visit

end DiscVolume
