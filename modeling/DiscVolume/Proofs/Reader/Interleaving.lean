import DiscVolume.Proofs.Reader.Alike

/-! Interleaved use of one open reader and the streams that it opens. They all move one medium, but
none of them finds what another has left there: whatever is called in between, and whatever of it
fails, directories are read as right after opening, and each stream plays as if it were alone.
-/

namespace DiscVolume.Visit

open Access Sequencing

-----------------------------------------------------------------------------------------
-- What is seen of an interleaving
-----------------------------------------------------------------------------------------

/-- Whether a call looks for files or directories in the open volume. -/
def Call.navigates : Call σ → Bool
  | .root | .readDirectory _ | .openFile _ | .lookup _ => true
  | _ => false

/-- The request that a call makes of the stream at a place. -/
def Call.request? (place : Nat) : Call σ → Option FileStream.Request
  | .play other request => if other = place then some request else none
  | _ => none

theorem Call.request?_eq_some {call : Call σ} {place : Nat} {request : FileStream.Request}
    : call.request? place = some request ↔ call = .play place request := by
  cases call with
  | play other asked =>
      rw [request?]
      split
      · next same => simp [same]
      · next apart => simp [apart]
  | _ => simp [request?]

/-- The same answer, wherever a stream that is opened is put. -/
def Answer.placeless : Answer → Answer
  | .stream _ => .stream 0
  | answer => answer

/-- What a call returns: its outcome wherever a stream is put, and the streams that it opens. -/
def returned (visit : Visit σ) (call : Call σ) : Except Failure Answer × List (FileStream σ) :=
  (Answer.placeless <$> visit.outcome call, (visit.after call).streams.drop visit.streams.length)

/-- What the stream at a place answers while one call is made after another. -/
def repliesAt (place : Nat) (visit : Visit σ) : List (Call σ) → List (Except Failure Answer)
  | [] => []
  | call :: others =>
      match call.request? place with
      | some _ => visit.outcome call :: (visit.after call).repliesAt place others
      | none => (visit.after call).repliesAt place others

/-- What is asked of the stream at a place, as calls to the first stream of a visit. -/
def aloneAt (place : Nat) (calls : List (Call σ)) : List (Call σ) :=
  (calls.filterMap (Call.request? place)).map (.play 0)

variable {visit lone : Visit σ} {volume : Volume σ} {call : Call σ} {ready : σ → Prop}
variable {place : Nat}

-----------------------------------------------------------------------------------------
-- Navigation
-----------------------------------------------------------------------------------------

/-- A step of twin readers returns the same, whatever streams there are. -/
theorem returned_of_onReader {related : σ → σ → Prop} {step : Using σ α} {answer : α → Answer}
    (steps : Alike (Reader.Twinned related) (· = ·) step step)
    (readers : Reader.Twinned related (visit.reader, visit.medium) (lone.reader, lone.medium))
    (performs : perform call = onReader step >>= fun value => pure (answer value))
    : visit.returned call = lone.returned call := by
  have matched := steps _ _ readers
  unfold returned outcome after
  rw [performs]
  generalize left : step (visit.reader, visit.medium) = result,
    right : step (lone.reader, lone.medium) = other at matched
  cases matched with
  | ok values reached =>
      cases values
      rw [bind_of_ok (onReader_of_ok left), bind_of_ok (onReader_of_ok right)]
      simp [pure, EStateM.pure]
  | error reached =>
      rw [bind_of_error (onReader_of_error left), bind_of_error (onReader_of_error right)]
      simp

/-- A file is opened from the volume alone. -/
theorem perform_openFile (held : visit.reader.volume = some volume) (entry : Entry)
    : perform (.openFile entry) visit
      = match volume.openFile entry with
        | .ok stream =>
            .ok (.stream visit.streams.length) { visit with streams := visit.streams ++ [stream] }
        | .error failure => .error failure visit := by
  rw [perform]
  cases isDirectory : entry.isDirectory with
  | true =>
      have refused : Reader.openFile entry (visit.reader, visit.medium)
          = .error (.misused (.notAFile entry.name)) (visit.reader, visit.medium) := by
        rw [Reader.openFile, bind_of_ok (Reader.opened_of_held held), Volume.openFile, isDirectory]
        rfl
      rw [bind_of_error (onReader_of_error refused), Volume.openFile, isDirectory]
      rfl
  | false =>
      rw [bind_of_ok (onReader_of_ok (Reader.openFile_eq_ok held isDirectory)), Volume.openFile,
        isDirectory]
      rfl

/-- Navigation returns the same to twin readers of one volume, whatever streams there are. -/
theorem returned_of_navigates {related : σ → σ → Prop}
    (agrees : volume.source.AgreesWith volume.source related)
    (held : visit.reader.volume = some volume) (same : lone.reader = visit.reader)
    (media : related visit.medium lone.medium) (navigates : call.navigates = true)
    : visit.returned call = lone.returned call := by
  have readers : Reader.Twinned related (visit.reader, visit.medium)
      (lone.reader, lone.medium) := by
    refine ⟨?_, media⟩
    rw [same]
    exact .of_held held agrees
  cases call with
  | root => exact returned_of_onReader Reader.root_alike readers rfl
  | readDirectory parent =>
      exact returned_of_onReader (Reader.readDirectory_alike parent) readers rfl
  | lookup path => exact returned_of_onReader (Reader.lookup_alike path) readers rfl
  | openFile entry =>
      have heldLone : lone.reader.volume = some volume := by rw [same, held]
      unfold returned outcome after
      rw [perform_openFile held, perform_openFile heldLone]
      cases volume.openFile entry with
      | ok stream => simp [Answer.placeless]
      | error failure => simp
  | _ => cases navigates

-----------------------------------------------------------------------------------------
-- Streams
-----------------------------------------------------------------------------------------

/-- Before any stream is opened, a visit is its own twin. -/
theorem IsTwin.self {related : σ → σ → Prop} (held : visit.reader.volume = some volume)
    (fresh : visit.streams = [])
    (agrees : volume.source.AgreesWith volume.source related)
    (media : related visit.medium visit.medium)
    : IsTwin related visit visit where
  reader := .of_held held agrees
  streams := by
    rw [fresh]
    exact .nil
  media := media

/-- Calls that neither open nor close keep a visit its own twin. -/
theorem IsTwin.after_self {related : σ → σ → Prop} (twins : IsTwin related visit visit)
    (stays : call.turns = false)
    : IsTwin related (visit.after call) (visit.after call) := by
  have opens : call.opens = false := by
    cases call with
    | openImage supply => cases stays
    | _ => rfl
  -- No image is opened, so any supply can take the place of the one in the call.
  have next := (step_of_alike (perform_alike opens (.direct (.ofContents .empty))) twins).2
  rwa [Call.through_of_stays opens] at next

theorem IsTwin.reached_self {related : σ → σ → Prop} (twins : IsTwin related visit visit)
    {calls : List (Call σ)} (stay : ∀ call ∈ calls, call.turns = false)
    : IsTwin related (visit.reached calls) (visit.reached calls) := by
  induction calls generalizing visit with
  | nil => exact twins
  | cons call others ih =>
      exact ih (twins.after_self (stay call (.head _)))
        fun other found => stay other (.tail _ found)

theorem onReader_keepsStreams (step : Using σ α) (kept : List (FileStream σ) → Prop)
    : FailsOnly (onReader step) (fun visit => kept visit.streams) (fun _ => True) := by
  intro visit isKept
  apply onReader_of_ends
  cases step (visit.reader, visit.medium) with
  | ok value next => exact isKept
  | error failure next => exact ⟨isKept, trivial⟩

/-- A stream is left as it is by all calls but those to it. -/
theorem perform_keepsStream (apart : call.request? place = none) (stream : FileStream σ)
    : FailsOnly (perform call) (fun visit => visit.streams[place]? = some stream)
        (fun _ => True) := by
  have others {α : Type} (step : Using σ α) (answer : α → Answer)
      : FailsOnly (onReader step >>= fun value => pure (answer value))
          (fun visit => visit.streams[place]? = some stream) (fun _ => True) :=
    (onReader_keepsStreams step (·[place]? = some stream)).bind fun _ => .pure _
  -- Only opening a file and playing another stream touch the streams at all.
  cases call with
  | openFile entry =>
      refine FailsOnly.bind (onReader_keepsStreams _ (·[place]? = some stream)) fun opened => ?_
      refine FailsOnly.bind (fun visit found => ?_) fun _ => .pure _
      have bound := (List.getElem?_eq_some_iff.mp found).1
      exact (List.getElem?_append_left bound).trans found
  | play other request =>
      have elsewhere : other ≠ place := fun same => by simp [Call.request?, same] at apart
      intro visit found
      rw [perform, onStream]
      cases visit.streams[other]? with
      | none => exact found
      | some playing =>
          dsimp only
          cases FileStream.perform request (playing, visit.medium) with
          | ok reply next => exact (List.getElem?_set_ne elsewhere).trans found
          | error failure next => exact ⟨(List.getElem?_set_ne elsewhere).trans found, trivial⟩
  | _ => exact others _ _

/-- The stream at a place of a visit and the first stream of another are twins, over media that are
related.
-/
structure IsTwinAt (related : σ → σ → Prop) (place : Nat) (visit lone : Visit σ) : Prop where
  streams : ∃ stream twin, visit.streams[place]? = some stream ∧ lone.streams[0]? = some twin
    ∧ FileStream.IsTwin related stream twin
  media : related visit.medium lone.medium

/-- Twins answer alike, each at its place. -/
theorem IsTwinAt.play_alike {related : σ → σ → Prop} (request : FileStream.Request)
    : Alike (IsTwinAt related place) (· = ·) (perform (.play place request))
        (perform (.play 0 request)) := by
  refine onStream_alike related (FileStream.perform_alike request) ?_ ?_
  · rintro visit lone ⟨⟨stream, twin, found, foundLone, twins⟩, media⟩
    rw [found, foundLone]
    exact ⟨.some twins, media⟩
  · rintro visit lone ⟨⟨stream, twin, found, foundLone, -⟩, -⟩ state opposite reached
    have bound := (List.getElem?_eq_some_iff.mp found).1
    have boundLone := (List.getElem?_eq_some_iff.mp foundLone).1
    exact ⟨⟨_, _, List.getElem?_set_self bound, List.getElem?_set_self boundLone, reached.twins⟩,
      reached.media⟩

/-- The stream at a place of a visit and the first stream of another, in which it is alone, are
twins, and nothing else in the visit disturbs them.
-/
structure Accompanies (ready : σ → Prop) (place : Nat) (visit lone : Visit σ) : Prop where
  isTwin : IsTwin (BothReady ready ready) visit visit
  isTwinAt : IsTwinAt (BothReady ready ready) place visit lone

/-- What is asked of the stream is answered as if it were alone. -/
theorem Accompanies.play (accompanies : Accompanies ready place visit lone)
    (request : FileStream.Request)
    : visit.outcome (.play place request) = lone.outcome (.play 0 request)
      ∧ Accompanies ready place (visit.after (.play place request))
          (lone.after (.play 0 request)) := by
  obtain ⟨same, reached⟩ :=
    step_of_alike (IsTwinAt.play_alike request) accompanies.isTwinAt
  exact ⟨same, accompanies.isTwin.after_self rfl, reached⟩

/-- What is called apart from the stream makes no difference to it. -/
theorem Accompanies.after (accompanies : Accompanies ready place visit lone)
    (stays : call.turns = false) (apart : call.request? place = none)
    : Accompanies ready place (visit.after call) lone := by
  obtain ⟨isTwin, ⟨stream, twin, found, foundLone, twins⟩, media⟩ := accompanies
  have next := isTwin.after_self stays
  have kept := after_of_ends (perform_keepsStream apart stream visit found)
  exact ⟨next, ⟨stream, twin, kept, foundLone, twins⟩, next.media.isReady, media.isReadyTwin⟩

/-- A stream answers in an interleaving what it answers alone, by induction on the calls. -/
theorem Accompanies.repliesAt_eq (accompanies : Accompanies ready place visit lone)
    {calls : List (Call σ)} (stay : ∀ call ∈ calls, call.turns = false)
    : visit.repliesAt place calls = lone.outcomes (aloneAt place calls) := by
  induction calls generalizing visit lone with
  | nil => rfl
  | cons call others ih =>
      have staysLater : ∀ other ∈ others, other.turns = false :=
        fun other found => stay other (.tail _ found)
      rw [repliesAt, aloneAt, List.filterMap_cons]
      cases asked : call.request? place with
      | none => exact ih (accompanies.after (stay call (.head _)) asked) staysLater
      | some request =>
          obtain rfl := Call.request?_eq_some.mp asked
          obtain ⟨same, reached⟩ := accompanies.play request
          dsimp only
          rw [List.map_cons, outcomes, same, ih reached staysLater]
          rfl

/-- A stream that is opened is put behind all others, over the contents of the file. -/
theorem after_openFile (held : visit.reader.volume = some volume) {entry : Entry}
    (opened : visit.outcome (.openFile entry) = .ok (.stream place))
    : entry.isDirectory = false
      ∧ place = visit.streams.length
      ∧ visit.after (.openFile entry)
        = { visit with streams := visit.streams ++ [{ contents := volume.contentsOf entry }] } := by
  have performed := perform_openFile held entry
  rw [Volume.openFile] at performed
  rw [outcome, performed] at opened
  cases isDirectory : entry.isDirectory with
  | true =>
      rw [isDirectory] at opened
      cases opened
  | false =>
      rw [isDirectory] at opened performed
      refine ⟨rfl, ?_, ?_⟩
      · injection opened with answered
        injection answered with places
        exact places.symm
      · rw [after, performed]
        rfl

/-- A stream that is opened after other calls accompanies one that is opened at once. -/
theorem accompanies_of_opened (held : visit.reader.volume = some volume)
    (twins : IsTwin (BothReady ready ready) visit visit)
    (agrees : volume.source.AgreesWith volume.source (BothReady ready ready))
    (same : lone.reader = visit.reader) (fresh : lone.streams = []) (isReady : ready lone.medium)
    {entry : Entry} (opened : visit.outcome (.openFile entry) = .ok (.stream place))
    : Accompanies ready place (visit.after (.openFile entry)) (lone.after (.openFile entry)) := by
  have kept : IsTwin (BothReady ready ready) (visit.after (.openFile entry)) _ :=
    twins.after_self rfl
  obtain ⟨isFile, rfl, reached⟩ := after_openFile held opened
  have heldLone : lone.reader.volume = some volume := by rw [same, held]
  have openedLone : lone.outcome (.openFile entry) = .ok (.stream lone.streams.length) := by
    rw [outcome, perform_openFile heldLone, Volume.openFile, isFile]
    rfl
  obtain ⟨-, -, reachedLone⟩ := after_openFile heldLone openedLone
  rw [reached] at kept ⊢
  rw [reachedLone]
  have first : (lone.streams ++ [{ contents := volume.contentsOf entry }])[0]?
      = some { contents := volume.contentsOf entry } := by
    rw [fresh]
    rfl
  have streams : FileStream.IsTwin (BothReady ready ready)
      { contents := volume.contentsOf entry } { contents := volume.contentsOf entry } :=
    ⟨Volume.contentsOf_isTwin agrees entry, rfl, rfl⟩
  exact {
    isTwin := kept
    isTwinAt.streams := ⟨_, _, List.getElem?_concat_length, first, streams⟩
    isTwinAt.media := ⟨twins.media.isReady, isReady⟩
  }

-----------------------------------------------------------------------------------------
-- Interleavings
-----------------------------------------------------------------------------------------

theorem reader_reached {calls : List (Call σ)} (stay : ∀ call ∈ calls, call.turns = false)
    : (visit.reached calls).reader = visit.reader := by
  induction calls generalizing visit with
  | nil => rfl
  | cons call others ih =>
      exact (ih fun other found => stay other (.tail _ found)).trans
        (reader_after (stay call (.head _)))

/-- Interleaved use does not interfere. Once a volume is open on a file, whose position all users
share, let any calls follow that neither open nor close, whether or not they fail. The reader
stays as it is. Whatever is looked for next is returned as it would have been right after opening.
A stream that is opened next answers in all that follows what it would have answered alone, as the
first one and with nothing in between.
-/
theorem interleaving_independent {visit : Visit ImageFile} {volume : Volume ImageFile}
    {contents : ByteArray} {capacity : Nat} (held : visit.reader.volume = some volume)
    (onFile : volume.source = ImageFile.source capacity) (fresh : visit.streams = [])
    (holds : visit.medium.Holds contents) {before : List (Call ImageFile)}
    (stay : ∀ call ∈ before, call.turns = false)
    : (visit.reached before).reader = visit.reader
      ∧ (∀ call : Call ImageFile, call.navigates = true
        → (visit.reached before).returned call = visit.returned call)
      ∧ ∀ entry place behind,
        (visit.reached before).outcome (.openFile entry) = .ok (.stream place)
        → (∀ call ∈ behind, call.turns = false)
        → ((visit.reached before).after (.openFile entry)).repliesAt place behind
          = (visit.after (.openFile entry)).outcomes (aloneAt place behind) := by
  have agrees : volume.source.AgreesWith volume.source
      (BothReady (ImageFile.Holds contents) (ImageFile.Holds contents)) := by
    rw [onFile]
    exact (ImageFile.source_isUnchanging contents capacity).agreesWith_self
  have start := IsTwin.self held fresh agrees ⟨holds, holds⟩
  have twins := start.reached_self stay
  have same : (visit.reached before).reader = visit.reader := reader_reached stay
  have heldStill : (visit.reached before).reader.volume = some volume := by rw [same, held]
  refine ⟨same, fun call navigates => ?_, fun entry place behind opened stayBehind => ?_⟩
  · exact returned_of_navigates agrees heldStill same.symm ⟨twins.media.isReady, holds⟩ navigates
  · exact (accompanies_of_opened heldStill twins agrees same.symm fresh holds opened).repliesAt_eq
      stayBehind

/-- The small volume, just opened on a file that holds its image. -/
def smallVisit : Visit ImageFile where
  reader := { volume := some (smallVolume.over (ImageFile.source smallImage.length)) }
  medium := { contents := ⟨smallImage.toArray⟩ }

/-- A file is opened, and its stream is moved. -/
def smallCalls : List (Call ImageFile) :=
  [.openFile Reader.scatteredFile, .play 0 (.seek (.whole 3) 0)]

/-- A second file is opened and both are played in turn, with a directory read in between. The
second file reaches behind the image, so that reading all of it fails, as it does alone.
-/
theorem interleaving_independent_small
    : smallVisit.medium.Holds ⟨smallImage.toArray⟩
      ∧ (∀ call ∈ smallCalls, call.turns = false)
      ∧ (smallVisit.reached smallCalls).outcome (.openFile Reader.cutFile) = .ok (.stream 1)
      ∧ (smallVisit.reached smallCalls).returned (.readDirectory smallRoot)
        = smallVisit.returned (.readDirectory smallRoot)
      ∧ ((smallVisit.reached smallCalls).after (.openFile Reader.cutFile)).repliesAt 1
          [.play 1 (.read (some 2)), .readDirectory smallRoot, .play 0 .readAll, .play 1 .readAll,
            .play 1 .tell]
        = (smallVisit.after (.openFile Reader.cutFile)).outcomes
          [.play 0 (.read (some 2)), .play 0 .readAll, .play 0 .tell] := by
  have holds : smallVisit.medium.Holds ⟨smallImage.toArray⟩ := ⟨rfl, rfl⟩
  have held : smallVisit.reader.volume = some _ := rfl
  have stay : ∀ call ∈ smallCalls, call.turns = false := by
    simp [smallCalls, Call.turns]
  have opened : (smallVisit.reached smallCalls).outcome (.openFile Reader.cutFile)
      = .ok (.stream 1) := rfl
  obtain ⟨-, returns, streams⟩ := interleaving_independent held rfl rfl holds stay
  refine ⟨holds, stay, opened, returns _ rfl, streams _ _ _ opened ?_⟩
  simp [Call.turns]

end DiscVolume.Visit
