import DiscVolume.Proofs.Volume.Alike
import DiscVolume.Proofs.Volume.FileContents

/-! One stream on two sources that agree. Twin streams over media that are related cannot be told
apart by any request, and stay twins whatever is asked of both.
-/

namespace DiscVolume

namespace Contents

/-- The same embedded data, or the same runs on two sources that agree. -/
inductive IsTwin (related : σ → τ → Prop) : Contents σ → Contents τ → Prop where
  | embedded (data : Bytes) : IsTwin related (.embedded data) (.embedded data)
  | recorded {source : Source σ} {twin : Source τ} {runs : List ByteRun}
      (agrees : source.AgreesWith twin related) (bounded : ∀ run ∈ runs, run.IsBounded)
      : IsTwin related (.recorded source runs) (.recorded twin runs)

variable {related : σ → τ → Prop} {contents : Contents σ} {twin : Contents τ}

theorem IsTwin.length_eq (twins : IsTwin related contents twin)
    : twin.length = contents.length := by
  cases twins <;> rfl

/-- Runs are read alike, by induction on them. What is asked for starts and ends within a run, where
files can deal with all numbers.
-/
theorem readRuns_alike {source : Source σ} {other : Source τ} {runs : List ByteRun}
    (agrees : source.AgreesWith other related) (bounded : ∀ run ∈ runs, run.IsBounded)
    (start count : Nat)
    : Alike related (· = ·) (readRuns source runs start count)
        (readRuns other runs start count) := by
  induction runs generalizing start count with
  | nil => exact .pure rfl
  | cons run others ih =>
      have later := ih fun other found => bounded other (.tail _ found)
      obtain ⟨offset_nonneg, -, stop_lt⟩ := bounded run (.head _)
      rw [readRuns, readRuns]
      split
      · next reached =>
          obtain ⟨place, found⟩ : ∃ place : Nat, run.offset + start = place :=
            ⟨(run.offset + start).toNat, by omega⟩
          rw [found]
          refine (agrees.readExactly _ _ (by omega) (by omega)).bind_eq fun data => ?_
          exact (later _ _).bind_eq fun _ => .pure rfl
      · exact later _ _

theorem IsTwin.range (twins : IsTwin related contents twin) (start count : Nat)
    : Alike related (· = ·) (contents.range start count) (twin.range start count) := by
  cases twins with
  | embedded data => exact .pure rfl
  | recorded agrees bounded => exact readRuns_alike agrees bounded start count

end Contents

namespace FileStream

/-- Two streams with twin contents at the same position, both open or both closed. -/
structure IsTwin (related : σ → τ → Prop) (stream : FileStream σ) (twin : FileStream τ) : Prop where
  contents : Contents.IsTwin related stream.contents twin.contents
  position_eq : twin.position = stream.position
  isOpen_eq : twin.isOpen = stream.isOpen

/-- Twin streams over media that are related. -/
abbrev Twinned (related : σ → τ → Prop) : FileStream σ × σ → FileStream τ × τ → Prop :=
  Paired (IsTwin related) related

variable {related : σ → τ → Prop} {stream : FileStream σ} {twin : FileStream τ}

theorem IsTwin.remaining_eq (twins : IsTwin related stream twin)
    : twin.remaining = stream.remaining := by
  rw [remaining, remaining, twins.contents.length_eq, twins.position_eq]

theorem IsTwin.target_eq (twins : IsTwin related stream twin) (displacement : Displacement)
    (origin : Int)
    : twin.target displacement origin = stream.target displacement origin := by
  cases displacement with
  | whole bytes => simp only [target, twins.contents.length_eq, twins.position_eq]
  | fractional => rfl

theorem current_alike : Alike (Twinned related) (IsTwin related) current current :=
  fun _ _ paired => .ok paired.twins paired

theorem opened_alike : Alike (Twinned related) (IsTwin related) opened opened := by
  refine current_alike.bind fun stream twin twins => ?_
  rw [twins.isOpen_eq]
  split
  · exact .pure twins
  · exact .throw _

theorem moveTo_alike (position : Int)
    : Alike (Twinned related) (· = ·) (moveTo position) (moveTo position) :=
  .modify fun _ _ paired => ⟨{ paired.twins with position_eq := rfl }, paired.media⟩

theorem close_alike : Alike (Twinned related) (· = ·) close close :=
  .modify fun _ _ paired => ⟨{ paired.twins with isOpen_eq := rfl }, paired.media⟩

theorem onMedium_alike {same : α → β → Prop} {step : Access σ α} {other : Access τ β}
    (steps : Alike related same step other)
    : Alike (Twinned related) same (onMedium step) (onMedium other) :=
  steps.beside _

theorem deliver_alike (twins : IsTwin related stream twin) (count : Nat)
    : Alike (Twinned related) (· = ·) (stream.deliver count) (twin.deliver count) := by
  unfold deliver
  rw [twins.position_eq]
  refine (onMedium_alike (twins.contents.range _ count)).bind_eq fun data => ?_
  exact (moveTo_alike _).bind_eq fun _ => .pure rfl

theorem readAll_alike : Alike (Twinned related) (· = ·) readAll readAll := by
  refine opened_alike.bind fun stream twin twins => ?_
  rw [twins.remaining_eq]
  exact deliver_alike twins _

theorem read_alike (size : Option Int)
    : Alike (Twinned related) (· = ·) (read size) (read size) := by
  refine opened_alike.bind fun stream twin twins => ?_
  rw [twins.remaining_eq]
  exact deliver_alike twins _

theorem readInto_alike (buffer : Bytes)
    : Alike (Twinned related) (· = ·) (readInto buffer) (readInto buffer) := by
  refine opened_alike.bind fun stream twin twins => ?_
  rw [twins.remaining_eq]
  exact (deliver_alike twins _).bind_eq fun _ => .pure rfl

theorem seek_alike (displacement : Displacement) (origin : Int)
    : Alike (Twinned related) (· = ·) (seek displacement origin) (seek displacement origin) := by
  refine opened_alike.bind fun stream twin twins => ?_
  rw [twins.target_eq]
  split
  · exact (moveTo_alike _).bind_eq fun _ => .pure rfl
  · exact .throw _

theorem lineWithin_alike (budget : Nat)
    : Alike (Twinned related) (· = ·) (lineWithin budget) (lineWithin budget) := by
  induction budget with
  | zero => exact .pure rfl
  | succ budget ih =>
      refine (read_alike _).bind_eq fun data => ?_
      split
      · exact .pure rfl
      · exact ih.bind_eq fun _ => .pure rfl

theorem readLine_alike (limit : Option Int)
    : Alike (Twinned related) (· = ·) (readLine limit) (readLine limit) := by
  unfold readLine
  dsimp only
  split
  · exact .throw _
  · split
    · exact .pure rfl
    · refine opened_alike.bind fun stream twin twins => ?_
      rw [twins.remaining_eq]
      exact lineWithin_alike _

theorem linesWithin_alike (budget : Nat) (room : Option Nat)
    : Alike (Twinned related) (· = ·) (linesWithin budget room) (linesWithin budget room) := by
  induction budget generalizing room with
  | zero => exact .pure rfl
  | succ budget ih =>
      refine (readLine_alike none).bind_eq fun line => ?_
      split
      · exact .pure rfl
      · cases room with
        | none => exact (ih _).bind_eq fun _ => .pure rfl
        | some bytes =>
            dsimp only
            split
            · exact .pure rfl
            · exact (ih _).bind_eq fun _ => .pure rfl

theorem readLines_alike (hint : Option Int)
    : Alike (Twinned related) (· = ·) (readLines hint) (readLines hint) := by
  refine current_alike.bind fun stream twin twins => ?_
  rw [twins.isOpen_eq, twins.remaining_eq]
  split
  · exact .throw _
  · split
    · exact .throw _
    · exact linesWithin_alike _ _

theorem drain_alike : Alike (Twinned related) (· = ·) drain drain := by
  intro state opposite paired
  have matched := read_alike none state opposite paired
  unfold drain
  generalize read none state = result, read none opposite = answer at matched ⊢
  cases matched with
  | ok values reached =>
      exact .ok values ⟨{ reached.twins with isOpen_eq := rfl }, reached.media⟩
  | error reached => exact .error ⟨{ reached.twins with isOpen_eq := rfl }, reached.media⟩

/-- No request tells twin streams apart. -/
theorem perform_alike (request : Request)
    : Alike (Twinned related) (· = ·) (perform request) (perform request) := by
  cases request with
  | read size => exact (read_alike size).bind_eq fun _ => .pure rfl
  | readAll => exact readAll_alike.bind_eq fun _ => .pure rfl
  | readInto buffer => exact (readInto_alike buffer).bind_eq fun _ => .pure rfl
  | readLine limit => exact (readLine_alike limit).bind_eq fun _ => .pure rfl
  | readLines hint => exact (readLines_alike hint).bind_eq fun _ => .pure rfl
  | seek displacement origin => exact (seek_alike displacement origin).bind_eq fun _ => .pure rfl
  | tell =>
      exact opened_alike.bind fun _ _ twins => .pure (congrArg Reply.number twins.position_eq.symm)
  | length =>
      exact opened_alike.bind fun _ _ twins =>
        .pure (congrArg Reply.number twins.contents.length_eq.symm)
  | isReadable | isSeekable => exact opened_alike.bind fun _ _ _ => .pure rfl
  | isWritable => exact .pure rfl
  | isClosed =>
      exact current_alike.bind fun _ _ twins =>
        .pure (congrArg (fun isOpen => Reply.flag !isOpen) twins.isOpen_eq.symm)
  | close => exact close_alike.bind_eq fun _ => .pure rfl
  | drain => exact drain_alike.bind_eq fun _ => .pure rfl

end FileStream

/-- Streams that are opened on one volume over two sources that agree are twins. -/
theorem Volume.contentsOf_isTwin {volume : Volume σ} {twin : Source τ} {related : σ → τ → Prop}
    (agrees : volume.source.AgreesWith twin related) (entry : Entry)
    : Contents.IsTwin related (volume.contentsOf entry) ((volume.over twin).contentsOf entry) := by
  unfold contentsOf
  split
  · exact .embedded _
  · refine .recorded agrees fun run member => ?_
    exact isBounded_of_mem (volume.runs_eq _ ▸ member)

end DiscVolume
