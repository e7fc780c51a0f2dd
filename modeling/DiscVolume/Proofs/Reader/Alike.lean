import DiscVolume.Proofs.FileStream.Alike
import DiscVolume.Proofs.Reader.Lifecycle

/-! One visit on two sources that agree. Readers of one volume and the streams opened from it answer
every call alike, and are twins after it.
-/

namespace DiscVolume

namespace Reader

/-- Readers that hold twin volumes, or none. -/
inductive IsTwin (related : σ → τ → Prop) : Reader σ → Reader τ → Prop where
  | closed : IsTwin related {} {}
  | holding {volume : Volume σ} {twin : Volume τ} (volumes : Volume.IsTwin related volume twin)
      : IsTwin related { volume := some volume } { volume := some twin }

/-- A reader is its own twin where the source of its volume agrees with itself. -/
theorem IsTwin.of_held {related : σ → σ → Prop} {reader : Reader σ} {volume : Volume σ}
    (held : reader.volume = some volume) (agrees : volume.source.AgreesWith volume.source related)
    : IsTwin related reader reader := by
  obtain ⟨_⟩ := reader
  cases held
  exact .holding (.over agrees)

/-- Twin readers over media that are related. -/
abbrev Twinned (related : σ → τ → Prop) : Reader σ × σ → Reader τ × τ → Prop :=
  Paired (IsTwin related) related

variable {related : σ → τ → Prop}

theorem onMedium_alike {same : α → β → Prop} {step : Access σ α} {other : Access τ β}
    (steps : Alike related same step other)
    : Alike (Twinned related) same (onMedium step) (onMedium other) :=
  steps.beside _

theorem get_alike : Alike (Twinned related) (Twinned related) get get :=
  fun _ _ twinned => .ok twinned twinned

theorem hold_alike {volume : Volume σ} {twin : Volume τ}
    (volumes : Volume.IsTwin related volume twin)
    : Alike (Twinned related) (· = ·) (hold (some volume)) (hold (some twin)) :=
  .modify fun _ _ twinned => ⟨.holding volumes, twinned.media⟩

theorem opened_alike : Alike (Twinned related) (Volume.IsTwin related) opened opened := by
  refine get_alike.bind ?_
  rintro ⟨reader, medium⟩ ⟨twin, opposite⟩ ⟨readers, -⟩
  cases readers with
  | closed => exact .throw _
  | holding volumes => exact .pure volumes

theorem openImage_alike {supply : Supply σ} {supplyTwin : Supply τ}
    (opens : Alike related (Volume.IsTwin related) (Volume.ofSupply supply)
      (Volume.ofSupply supplyTwin))
    : Alike (Twinned related) (· = ·) (openImage supply) (openImage supplyTwin) := by
  refine get_alike.bind ?_
  rintro ⟨reader, medium⟩ ⟨twin, opposite⟩ ⟨readers, -⟩
  cases readers with
  | closed => exact (onMedium_alike opens).bind fun _ _ volumes => hold_alike volumes
  | holding volumes => exact .throw _

theorem close_alike : Alike (Twinned related) (· = ·) close close :=
  opened_alike.bind fun _ _ _ => .modify fun _ _ twinned => ⟨.closed, twinned.media⟩

theorem root_alike : Alike (Twinned related) (· = ·) root root := by
  refine opened_alike.bind ?_
  rintro volume _ ⟨agrees⟩
  exact onMedium_alike (Volume.root_alike agrees)

theorem readDirectory_alike (parent : Entry)
    : Alike (Twinned related) (· = ·) (readDirectory parent) (readDirectory parent) := by
  refine opened_alike.bind ?_
  rintro volume _ ⟨agrees⟩
  exact onMedium_alike (Volume.readDirectory_alike agrees parent)

theorem lookup_alike (path : String)
    : Alike (Twinned related) (· = ·) (lookup path) (lookup path) := by
  refine opened_alike.bind ?_
  rintro volume _ ⟨agrees⟩
  exact onMedium_alike (Volume.lookup_alike agrees path)

theorem openFile_alike (entry : Entry)
    : Alike (Twinned related) (FileStream.IsTwin related) (openFile entry) (openFile entry) := by
  refine opened_alike.bind ?_
  rintro volume _ ⟨agrees⟩
  unfold Volume.openFile
  cases entry.isDirectory with
  | true => exact .throw _
  | false => exact .pure ⟨Volume.contentsOf_isTwin agrees entry, rfl, rfl⟩

theorem absoluteSector_alike (block : Int)
    : Alike (Twinned related) (· = ·) (absoluteSector block) (absoluteSector block) := by
  refine opened_alike.bind ?_
  rintro volume _ ⟨-⟩
  exact .pure rfl

theorem absoluteOffset_alike (block : Int)
    : Alike (Twinned related) (· = ·) (absoluteOffset block) (absoluteOffset block) :=
  (absoluteSector_alike block).bind_eq fun _ => .pure rfl

end Reader

namespace Visit

-----------------------------------------------------------------------------------------
-- Calls
-----------------------------------------------------------------------------------------

/-- The same call, where images are opened from another supply. -/
def Call.through (supply : Supply τ) : Call σ → Call τ
  | .openImage _ => .openImage supply
  | .close => .close
  | .root => .root
  | .readDirectory parent => .readDirectory parent
  | .openFile entry => .openFile entry
  | .lookup path => .lookup path
  | .absoluteSector block => .absoluteSector block
  | .absoluteOffset block => .absoluteOffset block
  | .play place request => .play place request

theorem Call.through_of_stays {call : Call σ} (stays : call.opens = false) (supply : Supply σ)
    : call.through supply = call := by
  cases call with
  | openImage supply => cases stays
  | _ => rfl

/-- What a visit answers to a call. -/
def outcome (visit : Visit σ) (call : Call σ) : Except Failure Answer :=
  match perform call visit with
  | .ok answer _ => .ok answer
  | .error failure _ => .error failure

/-- What a visit answers to one call and another, whether or not they fail. -/
def outcomes (visit : Visit σ) : List (Call σ) → List (Except Failure Answer)
  | [] => []
  | call :: others => visit.outcome call :: (visit.after call).outcomes others

-----------------------------------------------------------------------------------------
-- Twin visits
-----------------------------------------------------------------------------------------

/-- Twin readers with twin streams, over media that are related. -/
structure IsTwin (related : σ → τ → Prop) (visit : Visit σ) (twin : Visit τ) : Prop where
  reader : Reader.IsTwin related visit.reader twin.reader
  streams : List.Forall₂ (FileStream.IsTwin related) visit.streams twin.streams
  media : related visit.medium twin.medium

variable {related : σ → τ → Prop}

theorem onReader_alike {same : α → β → Prop} {step : Using σ α} {other : Using τ β}
    (steps : Alike (Reader.Twinned related) same step other)
    : Alike (IsTwin related) same (onReader step) (onReader other) := by
  intro visit twin twins
  have matched := steps (visit.reader, visit.medium) (twin.reader, twin.medium)
    ⟨twins.reader, twins.media⟩
  unfold onReader
  generalize step (visit.reader, visit.medium) = result, other (twin.reader, twin.medium) = answer
    at matched ⊢
  cases matched with
  | ok values reached => exact .ok values ⟨reached.twins, twins.streams, reached.media⟩
  | error reached => exact .error ⟨reached.twins, twins.streams, reached.media⟩

theorem keep_alike {stream : FileStream σ} {twin : FileStream τ}
    (streams : FileStream.IsTwin related stream twin)
    : Alike (IsTwin related) (· = ·) (keep stream) (keep twin) := by
  intro visit other twins
  refine .ok twins.streams.length_eq { twins with streams := ?_ }
  exact List.rel_append twins.streams (.cons streams .nil)

/-- What lists of twins hold at a place is twins, or nothing. -/
theorem getElem?_rel {relation : α → β → Prop} {first : List α} {second : List β}
    (twins : List.Forall₂ relation first second) (place : Nat)
    : Option.Rel relation first[place]? second[place]? := by
  induction twins generalizing place with
  | nil => exact .none
  | cons head _ ih =>
      cases place with
      | zero => exact .some head
      | succ place => exact ih place

theorem set_rel {relation : α → β → Prop} {first : List α} {second : List β} {value : α} {other : β}
    (twins : List.Forall₂ relation first second) (values : relation value other) (place : Nat)
    : List.Forall₂ relation (first.set place value) (second.set place other) := by
  induction twins generalizing place with
  | nil => exact .nil
  | cons head tail ih =>
      cases place with
      | zero => exact .cons values tail
      | succ place => exact .cons head (ih place)

/-- Twin streams answer alike at their places, whatever is known of the other streams and kept when
these two are played.
-/
theorem onStream_alike (related : σ → τ → Prop) {relation : Visit σ → Visit τ → Prop}
    {place other : Nat} {step : Playing σ FileStream.Reply} {otherStep : Playing τ FileStream.Reply}
    (steps : Alike (FileStream.Twinned related) (· = ·) step otherStep)
    (found : ∀ visit twin, relation visit twin
      → Option.Rel (FileStream.IsTwin related) visit.streams[place]? twin.streams[other]?
        ∧ related visit.medium twin.medium)
    (kept : ∀ visit twin, relation visit twin → ∀ state opposite,
      FileStream.Twinned related state opposite
      → relation
        { visit with streams := visit.streams.set place state.1, medium := state.2 }
        { twin with streams := twin.streams.set other opposite.1, medium := opposite.2 })
    : Alike relation (· = ·) (onStream place step) (onStream other otherStep) := by
  intro visit twin states
  have keeps := kept visit twin states
  obtain ⟨here, media⟩ := found visit twin states
  unfold onStream
  generalize visit.streams[place]? = stream, twin.streams[other]? = opposite at here ⊢
  cases here with
  | none => exact .ok rfl states
  | @some stream opposite streams =>
      have matched := steps (stream, visit.medium) (opposite, twin.medium) ⟨streams, media⟩
      dsimp only
      generalize step (stream, visit.medium) = result,
        otherStep (opposite, twin.medium) = answer at matched ⊢
      cases matched with
      | ok values reached => exact .ok (congrArg Answer.reply values) (keeps _ _ reached)
      | error reached => exact .error (keeps _ _ reached)

theorem play_alike (place : Nat) (request : FileStream.Request)
    : Alike (IsTwin related) (· = ·) (perform (.play place request))
        (perform (.play place request)) :=
  onStream_alike related (FileStream.perform_alike request)
    (fun _ _ twins => ⟨getElem?_rel twins.streams place, twins.media⟩)
    (fun _ _ twins _ _ reached =>
      ⟨twins.reader, set_rel twins.streams reached.twins place, reached.media⟩)

/-- Calls that do not open an image are answered alike. -/
theorem perform_alike {call : Call σ} (stays : call.opens = false) (supply : Supply τ)
    : Alike (IsTwin related) (· = ·) (perform call) (perform (call.through supply)) := by
  cases call with
  | openImage supply => cases stays
  | close => exact (onReader_alike Reader.close_alike).bind_eq fun _ => .pure rfl
  | root => exact (onReader_alike Reader.root_alike).bind_eq fun _ => .pure rfl
  | readDirectory parent =>
      exact (onReader_alike (Reader.readDirectory_alike parent)).bind_eq fun _ => .pure rfl
  | openFile entry =>
      refine (onReader_alike (Reader.openFile_alike entry)).bind fun stream twin streams => ?_
      exact (keep_alike streams).bind_eq fun _ => .pure rfl
  | lookup path => exact (onReader_alike (Reader.lookup_alike path)).bind_eq fun _ => .pure rfl
  | absoluteSector block =>
      exact (onReader_alike (Reader.absoluteSector_alike block)).bind_eq fun _ => .pure rfl
  | absoluteOffset block =>
      exact (onReader_alike (Reader.absoluteOffset_alike block)).bind_eq fun _ => .pure rfl
  | play place request => exact play_alike place request

/-- Calls that open an image are answered alike where their supplies open twin volumes. -/
theorem perform_openImage_alike {supply : Supply σ} {supplyTwin : Supply τ}
    (opens : Alike related (Volume.IsTwin related) (Volume.ofSupply supply)
      (Volume.ofSupply supplyTwin))
    : Alike (IsTwin related) (· = ·) (perform (.openImage supply))
        (perform (.openImage supplyTwin)) :=
  (onReader_alike (Reader.openImage_alike opens)).bind_eq fun _ => .pure rfl

/-- Calls that are answered alike have the same outcome, and what relates the visits is kept. -/
theorem step_of_alike {relation : Visit σ → Visit τ → Prop} {visit : Visit σ} {twin : Visit τ}
    {call : Call σ} {other : Call τ}
    (calls : Alike relation (· = ·) (perform call) (perform other)) (states : relation visit twin)
    : visit.outcome call = twin.outcome other
      ∧ relation (visit.after call) (twin.after other) := by
  have matched := calls visit twin states
  unfold outcome after
  generalize perform call visit = result, perform other twin = answer at matched ⊢
  cases matched with
  | ok values reached => exact ⟨congrArg Except.ok values, reached⟩
  | error reached => exact ⟨rfl, reached⟩

end Visit

end DiscVolume
