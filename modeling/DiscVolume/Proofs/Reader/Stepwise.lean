import DiscVolume.Proofs.Reader.Lifecycle

/-! A reader that takes over what it reads field by field. Until an image is open, the fields say
how far opening has come; where it fails, all of them are made blank again. Seen from outside, such
a reader does what one does that takes over a volume as a whole.
-/

namespace DiscVolume.Stepwise

open Sequencing

-----------------------------------------------------------------------------------------
-- Fields
-----------------------------------------------------------------------------------------

/-- The fields of a reader. A new reader has nothing in them. -/
structure Fields (σ : Type) where
  isOpen : Bool := false
  source : Option (Source σ) := none
  recognition : List VolumeStructure := []
  anchor : Option AnchorPointer := none
  mainSequence : List Descriptor := []
  primary : Option PrimaryVolume := none
  partition : Option Partition := none
  logical : Option LogicalVolume := none
  fileSet : Option FileSet := none

namespace Fields

/-- The fields with all that describes a volume. -/
def filled (isOpen : Bool) (volume : Volume σ) : Fields σ where
  isOpen
  source := some volume.source
  recognition := volume.recognition
  anchor := some volume.anchor
  mainSequence := volume.mainSequence
  primary := some volume.primary
  partition := some volume.partition
  logical := some volume.logical
  fileSet := some volume.fileSet

def ofReader (reader : Reader σ) : Fields σ :=
  match reader.volume with
  | none => {}
  | some volume => filled true volume

/-- The volume that the fields describe while an image is open. -/
def volume? (fields : Fields σ) : Option (Volume σ) := do
  guard (fields.isOpen = true)
  return {
    source := ← fields.source
    recognition := fields.recognition
    anchor := ← fields.anchor
    mainSequence := fields.mainSequence
    primary := ← fields.primary
    partition := ← fields.partition
    logical := ← fields.logical
    fileSet := ← fields.fileSet
  }

@[simp] theorem volume?_ofReader (reader : Reader σ)
    : (ofReader reader).volume? = reader.volume := by
  unfold ofReader
  cases reader.volume <;> rfl

@[simp] theorem isOpen_ofReader (reader : Reader σ)
    : (ofReader reader).isOpen = reader.volume.isSome := by
  unfold ofReader
  cases reader.volume <;> rfl

/-- The fields of a closed reader are those of a new one. -/
theorem ofReader_of_closed {reader : Reader σ} (isClosed : reader.volume = none)
    : ofReader reader = {} := by
  rw [ofReader, isClosed]

end Fields

-----------------------------------------------------------------------------------------
-- Opening and closing in place
-----------------------------------------------------------------------------------------

/-- A step on the fields of a reader, over a medium. -/
abbrev Filling (σ : Type) := Access (Fields σ × σ)

/-- A step on the medium alone. -/
def onMedium (step : Access σ α) : Filling σ α := fun (fields, medium) =>
  match step medium with
  | .ok value after => .ok value (fields, after)
  | .error failure after => .error failure (fields, after)

def assign (change : Fields σ → Fields σ) : Filling σ Unit :=
  modify fun (fields, medium) => (change fields, medium)

/-- Makes all fields blank where a step fails, whatever it has put into them. -/
def resetting (step : Filling σ α) : Filling σ α := fun state =>
  match step state with
  | .error failure after => .error failure ({}, after.2)
  | result => result

/-- Reads the structures of the volume on a source, each into its field as soon as it is found. -/
def fill (source : Source σ) : Filling σ Unit := do
  assign fun fields => { fields with source := some source }
  let recognition ← onMedium
    (source.sequenceFrom VolumeStructure.decode VolumeStructure.endsSequence recognitionSector)
  assign fun fields => { fields with recognition }
  onMedium (source.tell (.recognitionRead recognition.length))
  if !Recognition.hasAnyIdentifier StructureKind.nsrIdentifiers recognition then
    throw (.malformed .unsupportedFormat)
  else
    let anchor ← onMedium
      (source.descriptorAt anchorSector .anchorPointer Descriptor.anchorPointer?)
    assign fun fields => { fields with anchor := some anchor }
    let start := anchor.mainSequence.location.toNat
    let mainSequence ← onMedium
      (source.sequenceFrom Descriptor.decode (fun descriptor => descriptor.kind = .terminating)
        start)
    assign fun fields => { fields with mainSequence }
    onMedium (source.tell (.sequenceRead mainSequence.length start))
    let primary ← onMedium
      (Access.settle (Descriptor.first .primaryVolume Descriptor.primaryVolume? mainSequence))
    assign fun fields => { fields with primary := some primary }
    let partition ← onMedium
      (Access.settle (Descriptor.first .partition Descriptor.partition? mainSequence))
    assign fun fields => { fields with partition := some partition }
    let logical ← onMedium
      (Access.settle (Descriptor.first .logicalVolume Descriptor.logicalVolume? mainSequence))
    assign fun fields => { fields with logical := some logical }
    let fileSet ← onMedium
      (source.descriptorAt partition.startLocation.toNat .fileSet Descriptor.fileSet?)
    assign fun fields => { fields with fileSet := some fileSet }

def openImage (supply : Supply σ) : Filling σ Unit := do
  if (← get).1.isOpen then throw (.misused .alreadyOpen)
  else
    let source ← onMedium (Access.settle supply.toSource)
    onMedium (source.tell .opening)
    resetting (Access.blaming .opening (fill source))
    assign fun fields => { fields with isOpen := true }

def close : Filling σ Unit := do
  if (← get).1.isOpen then assign fun _ => {}
  else throw (.misused .notOpen)

variable {fields : Fields σ} {medium : σ}

/-- Filling the fields goes as far as reading the volume does, and then they describe it. -/
def Mirrors (filling : EStateM.Result Failure (Fields σ × σ) Unit)
    : EStateM.Result Failure σ (Volume σ) → Prop
  | .ok volume after => filling = .ok () (Fields.filled false volume, after)
  | .error failure after => ∃ fields, filling = .error failure (fields, after)

/-- A step on the medium that both take leaves both where they were. -/
theorem Mirrors.bind {step : Access σ α} {others : α → Filling σ Unit}
    {plain : α → Access σ (Volume σ)}
    (rest : ∀ value after, Mirrors (others value (fields, after)) (plain value after))
    : Mirrors ((onMedium step >>= others) (fields, medium)) ((step >>= plain) medium) := by
  cases result : step medium with
  | ok value after =>
      have found : onMedium step (fields, medium) = .ok value (fields, after) := by
        rw [onMedium, result]
      rw [bind_of_ok result, bind_of_ok found]
      exact rest value after
  | error failure after =>
      have failed : onMedium step (fields, medium) = .error failure (fields, after) := by
        rw [onMedium, result]
      rw [bind_of_error result, bind_of_error failed]
      exact ⟨fields, rfl⟩

/-- An assignment reads nothing. -/
theorem Mirrors.assign {change : Fields σ → Fields σ} {others : Unit → Filling σ Unit}
    {plain : EStateM.Result Failure σ (Volume σ)}
    (rest : Mirrors (others () (change fields, medium)) plain)
    : Mirrors ((Stepwise.assign change >>= others) (fields, medium)) plain :=
  rest

/-- Filling the fields of a new reader goes as far as reading the volume. -/
theorem mirrors_fill (source : Source σ) (medium : σ)
    : Mirrors (fill source ({}, medium)) (Volume.ofSource source medium) := by
  unfold fill Volume.ofSource
  refine Mirrors.assign (.bind fun recognition _ => .assign (.bind fun _ after => ?_))
  by_cases unsupported :
      (!Recognition.hasAnyIdentifier StructureKind.nsrIdentifiers recognition) = true
  · rw [if_pos unsupported, if_pos unsupported]
    exact ⟨_, rfl⟩
  · rw [if_neg unsupported, if_neg unsupported]
    refine .bind fun anchor _ => .assign ?_
    refine .bind fun mainSequence _ => .assign (.bind fun _ _ => ?_)
    refine .bind fun primary _ => .assign (.bind fun partition _ => .assign ?_)
    refine .bind fun logical _ => .assign (.bind fun fileSet _ => ?_)
    exact rfl

/-- Where the volume cannot be read the fields are blank, and otherwise they describe it. -/
theorem Mirrors.resetting {filling : Filling σ Unit} {plain : Access σ (Volume σ)}
    (mirrors : Mirrors (filling (fields, medium)) (plain medium)) (activity : Activity)
    : resetting (Access.blaming activity filling) (fields, medium)
      = match Access.blaming activity plain medium with
        | .ok volume after => .ok () (Fields.filled false volume, after)
        | .error failure after => .error failure ({}, after) := by
  cases result : plain medium with
  | ok volume after =>
      rw [result] at mirrors
      have filled : filling (fields, medium) = .ok () (Fields.filled false volume, after) :=
        mirrors
      simp only [Stepwise.resetting, Access.blaming, result, filled]
  | error failure after =>
      rw [result] at mirrors
      obtain ⟨left, failed⟩ := mirrors
      cases failure with
      | medium fault =>
          simp only [Stepwise.resetting, Access.blaming, result, failed]
          cases fault.kind.concernsData <;> rfl
      | _ => simp only [Stepwise.resetting, Access.blaming, result, failed]

-----------------------------------------------------------------------------------------
-- Seen from outside
-----------------------------------------------------------------------------------------

/-- A result in which the state is seen from outside. -/
def seen (view : σ → τ) : EStateM.Result ε σ α → EStateM.Result ε τ α
  | .ok value state => .ok value (view state)
  | .error failure state => .error failure (view state)

/-- The fields that a reader has, over the same medium. -/
def fieldsOf (state : Reader σ × σ) : Fields σ × σ := (.ofReader state.1, state.2)

/-- A new reader opens an image field by field just as it is opened as a whole. -/
theorem openImage_new {supply : Supply σ} {source : Source σ}
    (chosen : supply.toSource = .ok source) (medium : σ)
    : openImage supply ({}, medium)
      = seen fieldsOf (Reader.openImage supply ({}, medium)) := by
  have begun : openImage supply ({}, medium)
      = (resetting (Access.blaming .opening (fill source)) >>= fun _ =>
          assign fun fields => { fields with isOpen := true })
        ({}, source.note .opening medium) := by
    have settled : onMedium (Access.settle supply.toSource) (({} : Fields σ), medium)
        = .ok source ({}, medium) := by
      rw [chosen]
      rfl
    exact (bind_of_ok rfl).trans ((bind_of_ok settled).trans (bind_of_ok rfl))
  have filled := (mirrors_fill source (source.note .opening medium)).resetting .opening
  rw [begun, Reader.openImage_new chosen]
  cases result : Access.blaming .opening (Volume.ofSource source) (source.note .opening medium) with
  | ok volume after =>
      rw [result] at filled
      rw [bind_of_ok filled]
      rfl
  | error failure after =>
      rw [result] at filled
      rw [bind_of_error filled]
      rfl

/-- Opening field by field does what opening as a whole does. -/
theorem openImage_seen (supply : Supply σ) (state : Reader σ × σ)
    : openImage supply (fieldsOf state) = seen fieldsOf (Reader.openImage supply state) := by
  obtain ⟨⟨held⟩, medium⟩ := state
  cases held with
  | some volume => rfl
  | none =>
      cases chosen : supply.toSource with
      | ok source => exact openImage_new chosen medium
      | error failure =>
          have refused : Volume.ofSupply supply medium = .error failure medium := by
            rw [Volume.ofSupply, chosen]
            rfl
          have unread : Reader.openImage supply ({}, medium) = .error failure ({}, medium) := by
            refine (bind_of_ok rfl).trans (bind_of_error ?_)
            rw [Reader.onMedium, refused]
          have unfilled : openImage supply ({}, medium) = .error failure ({}, medium) := by
            refine (bind_of_ok rfl).trans (bind_of_error ?_)
            rw [chosen]
            rfl
          rw [unread]
          exact unfilled

/-- Closing makes the fields those of a new reader. -/
theorem close_seen (state : Reader σ × σ)
    : close (fieldsOf state) = seen fieldsOf (Reader.close state) := by
  obtain ⟨⟨held⟩, medium⟩ := state
  cases held <;> rfl

-----------------------------------------------------------------------------------------
-- Visits
-----------------------------------------------------------------------------------------

/-- A visit to a reader that takes over what it reads field by field. -/
structure Visit (σ : Type) where
  fields : Fields σ := {}
  streams : List (FileStream σ) := []
  medium : σ

namespace Visit

def ofVisit (visit : DiscVolume.Visit σ) : Visit σ where
  fields := .ofReader visit.reader
  streams := visit.streams
  medium := visit.medium

/-- What the fields say about the volume, with all else as it is. -/
def toVisit (visit : Visit σ) : DiscVolume.Visit σ where
  reader := { volume := visit.fields.volume? }
  streams := visit.streams
  medium := visit.medium

theorem toVisit_ofVisit (visit : DiscVolume.Visit σ) : (ofVisit visit).toVisit = visit := by
  simp [toVisit, ofVisit]

/-- A step on the fields alone. -/
def onFields (step : Filling σ Unit) : Access (Visit σ) Visit.Answer := fun visit =>
  match step (visit.fields, visit.medium) with
  | .ok _ after => .ok .nothing { visit with fields := after.1, medium := after.2 }
  | .error failure after => .error failure { visit with fields := after.1, medium := after.2 }

/-- A call that assigns no fields and reads the volume from them. -/
def ask (call : Visit.Call σ) : Access (Visit σ) Visit.Answer := fun visit =>
  match DiscVolume.Visit.perform call visit.toVisit with
  | .ok answer next => .ok answer { visit with streams := next.streams, medium := next.medium }
  | .error failure next =>
      .error failure { visit with streams := next.streams, medium := next.medium }

def perform : Visit.Call σ → Access (Visit σ) Visit.Answer
  | .openImage supply => onFields (openImage supply)
  | .close => onFields close
  | call => ask call

def after (visit : Visit σ) (call : Visit.Call σ) : Visit σ :=
  match perform call visit with
  | .ok _ next => next
  | .error _ next => next

def reached (visit : Visit σ) (calls : List (Visit.Call σ)) : Visit σ := calls.foldl after visit

theorem onFields_seen {filling : Filling σ Unit} {step : Using σ Unit}
    (same : ∀ state, filling (fieldsOf state) = seen fieldsOf (step state))
    (visit : DiscVolume.Visit σ)
    : onFields filling (ofVisit visit)
      = seen ofVisit ((DiscVolume.Visit.onReader step >>= fun _ => pure .nothing) visit) := by
  have filled := same (visit.reader, visit.medium)
  change filling ((ofVisit visit).fields, (ofVisit visit).medium) = _ at filled
  rw [onFields, filled]
  cases result : step (visit.reader, visit.medium) with
  | ok value after => rw [bind_of_ok (DiscVolume.Visit.onReader_of_ok result)]; rfl
  | error failure after => rw [bind_of_error (DiscVolume.Visit.onReader_of_error result)]; rfl

/-- Calls that assign no fields leave them as they are. -/
theorem ask_seen {call : Visit.Call σ} (stays : call.turns = false) (visit : DiscVolume.Visit σ)
    : ask call (ofVisit visit) = seen ofVisit (DiscVolume.Visit.perform call visit) := by
  have keeps := DiscVolume.Visit.perform_keeps call stays visit.reader visit rfl
  rw [ask, toVisit_ofVisit]
  cases result : DiscVolume.Visit.perform call visit with
  | ok answer next =>
      rw [result] at keeps
      have kept : next.reader = visit.reader := keeps
      simp [seen, ofVisit, kept]
  | error failure next =>
      rw [result] at keeps
      have kept : next.reader = visit.reader := keeps.1
      simp [seen, ofVisit, kept]

/-- All calls have the same answers, and leave the fields that the reader then has. -/
theorem perform_seen (call : Visit.Call σ) (visit : DiscVolume.Visit σ)
    : perform call (ofVisit visit) = seen ofVisit (DiscVolume.Visit.perform call visit) := by
  cases call with
  | openImage supply => exact onFields_seen (openImage_seen supply) visit
  | close => exact onFields_seen close_seen visit
  | _ => exact ask_seen rfl visit

theorem after_ofVisit (visit : DiscVolume.Visit σ) (call : Visit.Call σ)
    : after (ofVisit visit) call = ofVisit (visit.after call) := by
  rw [after, perform_seen, DiscVolume.Visit.after]
  cases DiscVolume.Visit.perform call visit <;> rfl

/-- The fields go with the reader through all calls, by induction on them. -/
theorem reached_ofVisit (visit : DiscVolume.Visit σ) (calls : List (Visit.Call σ))
    : reached (ofVisit visit) calls = ofVisit (visit.reached calls) := by
  induction calls generalizing visit with
  | nil => rfl
  | cons call others ih =>
      rw [reached, List.foldl_cons, after_ofVisit]
      exact ih (visit.after call)

/-- What is promised of a reader whatever it was asked for before. While it is closed, whatever
needs a volume is turned down and nothing is touched; while it is open, so is opening. Where a
closed reader fails to open an image its fields are those of a new one, as which it opens the next.
-/
structure IsOrderly (visit : Visit σ) : Prop where
  turned_down : visit.fields.isOpen = false → ∀ call : Visit.Call σ, call.needsVolume = true
    → perform call visit = .error (.misused .notOpen) visit
  kept_open : visit.fields.isOpen = true → ∀ supply : Supply σ,
    perform (.openImage supply) visit = .error (.misused .alreadyOpen) visit
  left_blank : visit.fields.isOpen = false → ∀ (supply : Supply σ) failure next,
    perform (.openImage supply) visit = .error failure next → next.fields = {}
  opened_as_new : visit.fields.isOpen = false → ∀ supply : Supply σ,
    openImage supply (visit.fields, visit.medium) = openImage supply ({}, visit.medium)

theorem volume_eq_none {visit : DiscVolume.Visit σ}
    (isClosed : (ofVisit visit).fields.isOpen = false)
    : visit.reader.volume = none := by
  simpa [ofVisit] using isClosed

/-- Where a closed reader fails to open an image, it stays closed. -/
theorem fields_of_openImage_error {visit : DiscVolume.Visit σ} {supply : Supply σ}
    {failure : Failure} {next : Visit σ} (isClosed : visit.reader.volume = none)
    (failed : perform (.openImage supply) (ofVisit visit) = .error failure next)
    : next.fields = {} := by
  have closed := DiscVolume.Visit.isSome_after_openImage isClosed supply
  rw [perform_seen] at failed
  cases result : DiscVolume.Visit.perform (.openImage supply) visit with
  | ok answer later =>
      rw [result] at failed
      cases failed
  | error failure later =>
      rw [result] at failed
      cases failed
      rw [DiscVolume.Visit.after, DiscVolume.Visit.succeeds, result] at closed
      exact Fields.ofReader_of_closed (by simpa using closed)

/-- Seen from outside, readers are orderly. -/
theorem isOrderly_ofVisit (visit : DiscVolume.Visit σ) : (ofVisit visit).IsOrderly where
  turned_down isClosed call needs := by
    rw [perform_seen, DiscVolume.Visit.perform_of_closed (volume_eq_none isClosed) needs]
    rfl
  kept_open isOpen supply := by
    obtain ⟨volume, held⟩ : ∃ volume, visit.reader.volume = some volume := by
      simpa [ofVisit, Option.isSome_iff_exists] using isOpen
    rw [perform_seen, DiscVolume.Visit.perform_openImage_of_open held]
    rfl
  left_blank isClosed _ _ _ failed := fields_of_openImage_error (volume_eq_none isClosed) failed
  opened_as_new isClosed _ := by
    have blank : (ofVisit visit).fields = {} :=
      Fields.ofReader_of_closed (volume_eq_none isClosed)
    rw [blank]

/-- The life of a reader. Whatever a new reader was asked for before, each call ends as it does for
a reader that takes over volumes as a whole, and the fields are those of that reader. It is open
just if the last call that succeeded in opening or closing it was one to open it; and what comes
next is dealt with in an orderly way.
-/
theorem fields_through_visit (medium : σ) (calls : List (Visit.Call σ))
    : reached { medium } calls = ofVisit (DiscVolume.Visit.reached { medium } calls)
      ∧ (∀ call, perform call (reached { medium } calls)
        = seen ofVisit
            (DiscVolume.Visit.perform call (DiscVolume.Visit.reached { medium } calls)))
      ∧ ((reached { medium } calls).fields.isOpen = true
        ↔ ∃ supply,
            ((DiscVolume.Visit.successes { medium } calls).filter Visit.Call.turns).getLast?
              = some (.openImage supply))
      ∧ (reached { medium } calls).IsOrderly := by
  have same : reached { medium } calls = ofVisit (DiscVolume.Visit.reached { medium } calls) :=
    reached_ofVisit { medium } calls
  refine ⟨same, fun call => same ▸ perform_seen call _, ?_, same ▸ isOrderly_ofVisit _⟩
  rw [same]
  change (Fields.ofReader _).isOpen = true ↔ _
  rw [Fields.isOpen_ofReader, DiscVolume.Visit.isSome_reached]
  cases ((DiscVolume.Visit.successes { medium } calls).filter Visit.Call.turns).getLast? with
  | none => simp
  | some call => cases call <;> simp [Visit.Call.opens]

end Visit

end DiscVolume.Stepwise
