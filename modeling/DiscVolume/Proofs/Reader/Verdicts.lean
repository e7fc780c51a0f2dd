import DiscVolume.Proofs.FileStream.Verdicts
import DiscVolume.Proofs.Reader.Visit
import DiscVolume.Proofs.Volume.Verdicts

/-! What may come out of each call of a visit: verdicts on the image and misuses of the reader, and
what the reading of lines makes of limits that no size can have and of closed streams. A visit stays
sound whatever is asked for, so that this holds for all calls of it.
-/

namespace DiscVolume

open Access Sequencing

namespace Reader

/-- A reader holds some volume or none. -/
def IsHolding (held : Option (Volume σ)) (reader : Reader σ) : Prop := reader.volume = held

variable {ready : σ → Prop} {allowed : Failure → Prop} {state : Reader σ × σ}

theorem opened_of_empty (isClosed : state.1.volume = none)
    : opened state = .error (.misused .notOpen) state := by
  have looked : (get : Using σ (Reader σ × σ)) state = .ok state state := rfl
  rw [opened, bind_of_ok looked, isClosed]
  rfl

/-- What is done on the medium ends as it does there, and the reader keeps what it holds. -/
theorem onMedium_ends {step : Access σ α} (ends : Ends (step state.2) ready allowed)
    : Ends (onMedium step state) (Beside (IsHolding state.1.volume) ready) allowed := by
  cases result : step state.2 with
  | ok value after =>
      have found : onMedium step state = .ok value (state.1, after) := by
        simp only [onMedium, result]
      rw [result] at ends
      rw [found]
      exact ⟨rfl, ends⟩
  | error failure after =>
      have failed : onMedium step state = .error failure (state.1, after) := by
        simp only [onMedium, result]
      rw [result] at ends
      rw [failed]
      exact ⟨⟨rfl, ends.1⟩, ends.2⟩

end Reader

namespace Visit

/-- A visit whose medium is ready, with all that was opened reading from sources that are served. -/
structure IsSound (ready : σ → Prop) (visit : Visit σ) : Prop where
  isReady : ready visit.medium
  volume : ∀ volume, visit.reader.volume = some volume
    → ∃ image, volume.source.ServesToEnd image ready
  streams : ∀ stream ∈ visit.streams, stream.contents.IsServed ready

/-- The image that is to be opened, if any, is served. -/
def Call.IsServed (ready : σ → Prop) : Call σ → Prop
  | .openImage supply =>
      ∃ source image, supply.toSource = .ok source ∧ source.ServesToEnd image ready
  | _ => True

/-- Packed contents are served to whoever opens them. -/
theorem Call.isServed_ofContents (contents : ByteArray)
    : (openImage (.direct (.ofContents contents)) : Call σ).IsServed (fun _ => True) :=
  ⟨.ofContents contents, _, rfl, .ofContents contents⟩

/-- A binary file that stays open is served, if it is no larger than files can be. -/
theorem Call.isServed_imageFile {contents : ByteArray} {capacity : Nat} {form : FileForm}
    (isBinary : form.isBinary = true) (bounded : (contents.size : Int) < indexLimit)
    (covered : contents.size ≤ capacity)
    : (openImage (.file form (ImageFile.source capacity))).IsServed (ImageFile.Holds contents) :=
  ⟨_, _, if_pos isBinary, ImageFile.servesToEnd_source bounded covered⟩

/-- Whether a call is about the volume that is open. -/
def Call.needsVolume : Call σ → Bool
  | .openImage _ | .play _ _ => false
  | .close | .root | .readDirectory _ | .openFile _ | .lookup _ | .absoluteSector _
  | .absoluteOffset _ => true

/-- How a call is turned down that the image has no part in. -/
inductive IsMisuse (visit : Visit σ) : Call σ → Misuse → Prop where
  | alreadyOpen (supply : Supply σ) (isOpen : visit.reader.volume.isSome)
      : IsMisuse visit (.openImage supply) .alreadyOpen
  | notOpen (call : Call σ) (needs : call.needsVolume = true)
      (isClosed : visit.reader.volume = none)
      : IsMisuse visit call .notOpen
  | notADirectory (parent : Entry) (isFile : parent.isDirectory = false)
      : IsMisuse visit (.readDirectory parent) (.notADirectory parent.name)
  | notAFile (entry : Entry) (isDirectory : entry.isDirectory = true)
      : IsMisuse visit (.openFile entry) (.notAFile entry.name)
  | astray (path : String) {volume : Volume σ} {misuse : Misuse}
      (held : visit.reader.volume = some volume) (strays : volume.Strays path visit.medium misuse)
      : IsMisuse visit (.lookup path) misuse
  | rejected (place : Nat) (request : FileStream.Request) {stream : FileStream σ}
      {misuse : Misuse} (found : visit.streams[place]? = some stream)
      (rejects : stream.Rejects request misuse)
      : IsMisuse visit (.play place request) misuse

/-- A stream is asked for lines with a limit that no size can have, or for all lines when it is
closed.
-/
inductive IsUnfit (visit : Visit σ) : Call σ → Failure → Prop where
  | play (place : Nat) (request : FileStream.Request) {stream : FileStream σ} {fault : MediumFault}
      (found : visit.streams[place]? = some stream) (unfit : request.IsUnfit stream.isOpen fault)
      : IsUnfit visit (.play place request) (.medium fault)

/-- What a call may fail with: a verdict on the image, a misuse of the reader, or as what is unfit
for the reading of lines.
-/
def Expects (visit : Visit σ) (call : Call σ) (failure : Failure) : Prop :=
  failure.IsJustified (visit.IsMisuse call) ∨ visit.IsUnfit call failure

variable {visit : Visit σ} {ready : σ → Prop} {allowed : Failure → Prop} {kept : Visit σ → Prop}

theorem IsSound.of_beside (sound : visit.IsSound ready) {after : Reader σ × σ}
    (beside : Beside (Reader.IsHolding visit.reader.volume) ready after)
    : IsSound ready { visit with reader := after.1, medium := after.2 } where
  isReady := beside.isReady
  volume volume held := sound.volume volume (beside.isKept ▸ held)
  streams := sound.streams

theorem onReader_of_ok {step : Using σ α} {value : α} {after : Reader σ × σ}
    (found : step (visit.reader, visit.medium) = .ok value after)
    : onReader step visit = .ok value { visit with reader := after.1, medium := after.2 } := by
  rw [onReader, found]

theorem onReader_of_error {step : Using σ α} {failure : Failure} {after : Reader σ × σ}
    (failed : step (visit.reader, visit.medium) = .error failure after)
    : onReader step visit = .error failure { visit with reader := after.1, medium := after.2 } := by
  rw [onReader, failed]

/-- A call ends as the step of the reader does that it stands for. -/
theorem onReader_of_ends {step : Using σ α}
    (ends : Ends (step (visit.reader, visit.medium))
      (fun after => kept { visit with reader := after.1, medium := after.2 }) allowed)
    : Ends (onReader step visit) kept allowed := by
  cases result : step (visit.reader, visit.medium) with
  | ok value after =>
      rw [result] at ends
      rw [onReader_of_ok result]
      exact ends
  | error failure after =>
      rw [result] at ends
      rw [onReader_of_error result]
      exact ends

/-- What needs an open volume fails as it does with the volume that is open, or for want of one. -/
theorem IsSound.opened_ends (sound : visit.IsSound ready) {call : Call σ}
    (needs : call.needsVolume = true) {others : Volume σ → Using σ α}
    (rest : ∀ (volume : Volume σ) (image : Bytes), visit.reader.volume = some volume
      → volume.source.ServesToEnd image ready
      → Ends (others volume (visit.reader, visit.medium))
        (Beside (Reader.IsHolding visit.reader.volume) ready)
        (Failure.IsJustified (visit.IsMisuse call)))
    : Ends (onReader (Reader.opened >>= others) visit) (IsSound ready) (visit.Expects call) := by
  refine onReader_of_ends ?_
  cases held : visit.reader.volume with
  | none =>
      rw [bind_of_error (Reader.opened_of_empty held)]
      exact ⟨sound, .inl (.misuse (.notOpen call needs held))⟩
  | some volume =>
      obtain ⟨image, serves⟩ := sound.volume volume held
      rw [bind_of_ok (Reader.opened_of_held held)]
      exact (rest volume image held serves).mono (fun _ => sound.of_beside) (fun _ => .inl)

/-- An image is opened if none is open and it is not condemned. -/
theorem IsSound.openImage_ends (sound : visit.IsSound ready) {supply : Supply σ}
    (served : (Call.openImage supply).IsServed ready)
    : Ends (onReader (Reader.openImage supply) visit) (IsSound ready)
        (visit.Expects (.openImage supply)) := by
  obtain ⟨source, image, chosen, serves⟩ := served
  refine onReader_of_ends ?_
  have looked : (get : Using σ (Reader σ × σ)) (visit.reader, visit.medium)
      = .ok (visit.reader, visit.medium) (visit.reader, visit.medium) := rfl
  rw [Reader.openImage, bind_of_ok looked]
  cases held : visit.reader.volume with
  | some volume => exact ⟨sound, .inl (.misuse (.alreadyOpen supply (by simp [held])))⟩
  | none =>
      have only := Volume.ofSupply_failsOnly chosen serves visit.medium sound.isReady
      change Ends ((Reader.onMedium (Volume.ofSupply supply) >>= _) _) _ _
      cases opened : Volume.ofSupply supply visit.medium with
      | ok volume after =>
          have found : Reader.onMedium (Volume.ofSupply supply) (visit.reader, visit.medium)
              = .ok volume (visit.reader, after) := by
            simp only [Reader.onMedium, opened]
          rw [opened] at only
          rw [bind_of_ok found]
          refine ⟨only, ?_, sound.streams⟩
          rintro _ ⟨⟩
          rw [Volume.source_of_ofSupply chosen opened]
          exact ⟨image, serves⟩
      | error failure after =>
          have failed : Reader.onMedium (Volume.ofSupply supply) (visit.reader, visit.medium)
              = .error failure (visit.reader, after) := by
            simp only [Reader.onMedium, opened]
          rw [opened] at only
          rw [bind_of_error failed]
          exact ⟨{ sound with isReady := only.1 }, .inl (.verdict only.2)⟩

/-- Closing takes out the volume, which leaves nothing to be unsound. -/
theorem IsSound.close_ends (sound : visit.IsSound ready)
    : Ends (onReader Reader.close visit) (IsSound ready) (visit.Expects .close) := by
  refine onReader_of_ends ?_
  cases held : visit.reader.volume with
  | some volume =>
      rw [Reader.close, bind_of_ok (Reader.opened_of_held held)]
      exact { sound with volume := by simp }
  | none =>
      rw [Reader.close, bind_of_error (Reader.opened_of_empty held)]
      exact ⟨sound, .inl (.misuse (.notOpen .close rfl held))⟩

/-- A stream that is played stays where it is, over the contents it was opened on. -/
theorem IsSound.set_stream (sound : visit.IsSound ready) {place : Nat} {stream : FileStream σ}
    (found : visit.streams[place]? = some stream) {next : FileStream σ × σ}
    (isReady : ready next.2) (same : next.1.contents = stream.contents)
    : IsSound ready
        { visit with streams := visit.streams.set place next.1, medium := next.2 } where
  isReady := isReady
  volume := sound.volume
  streams other member := by
    rcases List.mem_or_eq_of_mem_set member with kept | rfl
    · exact sound.streams other kept
    · rw [same]
      exact sound.streams stream (List.mem_of_getElem? found)

/-- A stream fails as it does by itself. -/
theorem IsSound.play_ends (sound : visit.IsSound ready) (place : Nat)
    (request : FileStream.Request)
    : Ends (onStream place (FileStream.perform request) visit) (IsSound ready)
        (visit.Expects (.play place request)) := by
  cases found : visit.streams[place]? with
  | none =>
      simp only [onStream, found]
      exact sound
  | some stream =>
      have isServed := sound.streams stream (List.mem_of_getElem? found)
      have ends : Ends (FileStream.perform request (stream, visit.medium)) _ _ :=
        FileStream.perform_ends isServed sound.isReady request
      cases result : FileStream.perform request (stream, visit.medium) with
      | ok reply after =>
          rw [result] at ends
          simp only [onStream, found, result]
          exact sound.set_stream found ends.isReady ends.isKept
      | error failure after =>
          rw [result] at ends
          obtain ⟨⟨same, isReady⟩, expected⟩ := ends
          simp only [onStream, found, result]
          refine ⟨sound.set_stream found isReady same, ?_⟩
          rcases expected with justified | ⟨fault, rfl, unfit⟩
          · exact .inl (justified.mono (fun _ => .rejected place request found))
          · exact .inr (.play place request found unfit)

/-- A file that is opened gives a stream over what the volume has recorded for it. -/
theorem IsSound.openFile_ends (sound : visit.IsSound ready) (entry : Entry)
    : Ends (perform (.openFile entry) visit) (IsSound ready)
        (visit.Expects (.openFile entry)) := by
  rw [perform]
  cases held : visit.reader.volume with
  | none =>
      have refused : Reader.openFile entry (visit.reader, visit.medium)
          = .error (.misused .notOpen) (visit.reader, visit.medium) :=
        bind_of_error (Reader.opened_of_empty held)
      rw [bind_of_error (onReader_of_error refused)]
      exact ⟨sound, .inl (.misuse (.notOpen _ rfl held))⟩
  | some volume =>
      cases isDirectory : entry.isDirectory with
      | true =>
          have refused : Reader.openFile entry (visit.reader, visit.medium)
              = .error (.misused (.notAFile entry.name)) (visit.reader, visit.medium) := by
            rw [Reader.openFile, bind_of_ok (Reader.opened_of_held held), Volume.openFile,
              if_pos isDirectory]
            rfl
          rw [bind_of_error (onReader_of_error refused)]
          exact ⟨sound, .inl (.misuse (.notAFile entry isDirectory))⟩
      | false =>
          obtain ⟨image, serves⟩ := sound.volume volume held
          have found : Reader.openFile entry (visit.reader, visit.medium)
              = .ok { contents := volume.contentsOf entry } (visit.reader, visit.medium) :=
            Reader.openFile_eq_ok held isDirectory
          rw [bind_of_ok (onReader_of_ok found)]
          refine { sound with streams := fun stream member => ?_ }
          rcases List.mem_append.mp member with earlier | last
          · exact sound.streams stream earlier
          · cases List.mem_singleton.mp last
            exact Volume.contentsOf_isServed serves.toServes entry

/-- Whatever is asked for in a visit, it stays sound, and fails only as is expected. -/
theorem IsSound.perform_ends (sound : visit.IsSound ready) {call : Call σ}
    (served : call.IsServed ready)
    : Ends (perform call visit) (IsSound ready) (visit.Expects call) := by
  cases call with
  | openImage supply => exact (sound.openImage_ends served).andPure
  | close => exact sound.close_ends.andPure
  | root =>
      refine Ends.andPure (sound.opened_ends rfl (fun volume image held serves => ?_))
      have found := (Volume.root_failsOnly serves).justified (visit.IsMisuse .root)
      exact Reader.onMedium_ends (found visit.medium sound.isReady)
  | readDirectory parent =>
      refine Ends.andPure (sound.opened_ends rfl (fun volume image held serves => ?_))
      have listed := Volume.readDirectory_failsOnly serves parent visit.medium sound.isReady
      refine Reader.onMedium_ends (listed.mono (fun _ => id) (fun _ justified => ?_))
      refine justified.mono ?_
      rintro misuse ⟨isFile, rfl⟩
      exact .notADirectory parent isFile
  | openFile entry => exact sound.openFile_ends entry
  | lookup path =>
      refine Ends.andPure (sound.opened_ends rfl (fun volume image held serves => ?_))
      have looked := Volume.lookup_ends serves path sound.isReady
      refine Reader.onMedium_ends (looked.mono (fun _ => id) (fun _ justified => ?_))
      exact justified.mono (fun _ => .astray path held)
  | absoluteSector block =>
      exact Ends.andPure (sound.opened_ends rfl (fun _ _ _ _ => ⟨rfl, sound.isReady⟩))
  | absoluteOffset block =>
      rw [perform, Reader.absoluteOffset, Reader.absoluteSector, bind_assoc]
      exact Ends.andPure (sound.opened_ends rfl (fun _ _ _ _ => ⟨rfl, sound.isReady⟩))
  | play place request => exact sound.play_ends place request

/-- Whether or not a call fails, what it keeps holds after it. -/
theorem after_of_ends {call : Call σ} (ends : Ends (perform call visit) kept allowed)
    : kept (visit.after call) := by
  rw [after]
  cases result : perform call visit with
  | ok answer next =>
      rw [result] at ends
      exact ends
  | error failure next =>
      rw [result] at ends
      exact ends.1

theorem IsSound.after (sound : visit.IsSound ready) {call : Call σ}
    (served : call.IsServed ready)
    : (visit.after call).IsSound ready :=
  after_of_ends (sound.perform_ends served)

/-- A visit stays sound through all calls, by induction on them. -/
theorem IsSound.reached (sound : visit.IsSound ready) {calls : List (Call σ)}
    (served : ∀ call ∈ calls, call.IsServed ready)
    : (visit.reached calls).IsSound ready := by
  induction calls generalizing visit with
  | nil => exact sound
  | cons call others ih =>
      exact ih (sound.after (served call (by simp)))
        (fun other member => served other (List.mem_cons_of_mem _ member))

/-- A new reader has opened nothing yet. -/
theorem IsSound.new {medium : σ} (isReady : ready medium)
    : IsSound ready ({ medium } : Visit σ) where
  isReady := isReady
  volume := by simp
  streams := by simp

/-- What is expected is no report of the medium that is taken for a defect of the image. -/
theorem Expects.ne_reported {call : Call σ} {failure : Failure}
    (expected : visit.Expects call failure) (activity : Activity) (report : String)
    : failure ≠ .malformed (.reportedByMedium activity report) := by
  rcases expected with justified | unfit
  · cases justified with
    | verdict isVerdict => exact isVerdict.ne_reported activity report
    | misuse isMisuse => simp
  · cases unfit
    simp

end Visit

end DiscVolume
