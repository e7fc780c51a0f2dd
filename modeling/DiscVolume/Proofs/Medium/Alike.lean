import DiscVolume.Proofs.Medium.Steady

/-! Steps that come out alike, each over a state of its own. They find the same or fail for the same
reason wherever their states are related, and leave them related. Sequences of such steps come out
alike, and so does what is read from two sources that serve one image.
-/

namespace DiscVolume

open Sequencing

/-- Two results find values that are the same in some sense, or are the same failure, and the states
that they leave are related.
-/
inductive Matches (related : σ → τ → Prop) (same : α → β → Prop)
    : EStateM.Result Failure σ α → EStateM.Result Failure τ β → Prop where
  | ok {value found after next} (values : same value found) (states : related after next)
      : Matches related same (.ok value after) (.ok found next)
  | error {failure after next} (states : related after next)
      : Matches related same (.error failure after) (.error failure next)

/-- Two media are both ready. -/
structure BothReady (ready : σ → Prop) (readyTwin : τ → Prop) (medium : σ) (opposite : τ)
    : Prop where
  isReady : ready medium
  isReadyTwin : readyTwin opposite

/-- From related states two steps come out alike. -/
def Alike (related : σ → τ → Prop) (same : α → β → Prop) (step : EStateM Failure σ α)
    (other : EStateM Failure τ β) : Prop :=
  ∀ state opposite, related state opposite → Matches related same (step state) (other opposite)

namespace Alike

variable {related : σ → τ → Prop} {same : α → β → Prop} {sameLater : γ → δ → Prop}
variable {step : EStateM Failure σ α} {other : EStateM Failure τ β}

theorem pure {value : α} {found : β} (values : same value found)
    : Alike related same (pure value) (pure found) :=
  fun _ _ states => .ok values states

theorem throw (failure : Failure) : Alike related same (throw failure) (throw failure) :=
  fun _ _ states => .error states

theorem modify {change : σ → σ} {shift : τ → τ}
    (kept : ∀ state opposite, related state opposite → related (change state) (shift opposite))
    : Alike related (· = ·) (modify change) (modify shift) :=
  fun state opposite states => .ok rfl (kept state opposite states)

/-- Steps in sequence come out alike if each does. -/
theorem bind {others : α → EStateM Failure σ γ} {rest : β → EStateM Failure τ δ}
    (first : Alike related same step other)
    (later : ∀ value found, same value found → Alike related sameLater (others value) (rest found))
    : Alike related sameLater (step >>= others) (other >>= rest) := by
  intro state opposite states
  have matched := first state opposite states
  generalize left : step state = result, right : other opposite = answer at matched
  cases matched with
  | ok values reached =>
      rw [bind_of_ok left, bind_of_ok right]
      exact later _ _ values _ _ reached
  | error reached =>
      rw [bind_of_error left, bind_of_error right]
      exact .error reached

/-- What comes after equal values need only be compared for one of them. -/
theorem bind_eq {step : EStateM Failure σ α} {other : EStateM Failure τ α}
    {others : α → EStateM Failure σ γ} {rest : α → EStateM Failure τ δ}
    (first : Alike related (· = ·) step other)
    (later : ∀ value, Alike related sameLater (others value) (rest value))
    : Alike related sameLater (step >>= others) (other >>= rest) := by
  refine first.bind fun value found values => ?_
  cases values
  exact later value

/-- Settled outcomes come out alike. -/
theorem settle (outcome : Except Failure α)
    : Alike related (· = ·) (Access.settle outcome) (Access.settle outcome) := by
  cases outcome with
  | ok value => exact pure rfl
  | error failure => exact throw failure

/-- Where a fault is blamed depends on the fault alone. -/
theorem blaming (activity : Activity) (steps : Alike related same step other)
    : Alike related same (Access.blaming activity step) (Access.blaming activity other) := by
  intro state opposite states
  have matched := steps state opposite states
  unfold Access.blaming
  generalize step state = result, other opposite = answer at matched ⊢
  cases matched with
  | ok values reached => exact .ok values reached
  | @error failure _ _ reached =>
      cases failure with
      | medium fault =>
          dsimp only
          split
          · exact .error reached
          · exact .error reached
      | _ => exact .error reached

/-- Steps with the same outcome on all ready media come out alike. -/
theorem of_answers {step : Access σ α} {other : Access τ α} {ready : σ → Prop}
    {readyTwin : τ → Prop} {outcome : Except Failure α} (first : step.Answers ready outcome)
    (second : other.Answers readyTwin outcome)
    : Alike (BothReady ready readyTwin) (· = ·) step other := by
  rintro medium opposite ⟨isReady, isReadyTwin⟩
  obtain ⟨after, readyAfter, answer⟩ := first medium isReady
  obtain ⟨next, readyNext, given⟩ := second opposite isReadyTwin
  rw [answer, given]
  exact settle outcome after next ⟨readyAfter, readyNext⟩

end Alike

/-- A step on the medium, whatever there is beside it. -/
def Access.beside (step : Access σ α) : EStateM Failure (κ × σ) α := fun (own, medium) =>
  match step medium with
  | .ok value after => .ok value (own, after)
  | .error failure after => .error failure (own, after)

namespace Access

variable {own : κ} {medium after : σ}

theorem beside_of_ok {step : Access σ α} {value : α} (h : step medium = .ok value after)
    : step.beside (own, medium) = .ok value (own, after) := by
  rw [beside, h]

theorem beside_of_error {step : Access σ α} {failure : Failure}
    (h : step medium = .error failure after)
    : step.beside (own, medium) = .error failure (own, after) := by
  rw [beside, h]

end Access

/-- Twins, each beside its medium, where the media are related. -/
structure Paired (twins : κ → ι → Prop) (related : σ → τ → Prop) (state : κ × σ) (opposite : ι × τ)
    : Prop where
  twins : twins state.1 opposite.1
  media : related state.2 opposite.2

/-- Steps on the media alone come out alike beside twins. -/
theorem Alike.beside {related : σ → τ → Prop} {same : α → β → Prop} {step : Access σ α}
    {other : Access τ β} (steps : Alike related same step other) (twins : κ → ι → Prop)
    : Alike (Paired twins related) same step.beside other.beside := by
  rintro ⟨own, medium⟩ ⟨opposite, place⟩ ⟨parts, media⟩
  have matched := steps medium place media
  unfold Access.beside
  dsimp only
  generalize step medium = result, other place = answer at matched ⊢
  cases matched with
  | ok values reached => exact .ok values ⟨parts, reached⟩
  | error reached => exact .error ⟨parts, reached⟩

namespace Source

/-- Two sources answer alike where their media are related, as long as they are asked with numbers
that files can deal with.
-/
structure AgreesWith (source : Source σ) (twin : Source τ) (related : σ → τ → Prop) : Prop where
  readExactly : ∀ offset length : Nat, (offset : Int) < indexLimit → (length : Int) < indexLimit
    → Alike related (· = ·) (source.readExactly offset length) (twin.readExactly offset length)
  related_note : ∀ note medium opposite, related medium opposite
    → related (source.note note medium) (twin.note note opposite)

variable {source : Source σ} {twin : Source τ} {related : σ → τ → Prop}

theorem AgreesWith.tell (agrees : source.AgreesWith twin related) (note : Note)
    : Alike related (· = ·) (source.tell note) (twin.tell note) :=
  .modify (agrees.related_note note)

/-- Sources that serve one image agree. -/
theorem Serves.agreesWith {image : Bytes} {ready : σ → Prop} {readyTwin : τ → Prop}
    (serves : source.Serves image ready) (servesTwin : twin.Serves image readyTwin)
    : source.AgreesWith twin (BothReady ready readyTwin) where
  readExactly offset length offsetBounded lengthBounded := by
    rintro medium opposite ⟨isReady, isReadyTwin⟩
    obtain ⟨after, readyAfter, answer⟩ :=
      serves.readExactly_eq offset length medium isReady (.inr ⟨offsetBounded, lengthBounded⟩)
    obtain ⟨next, readyNext, given⟩ := servesTwin.readExactly_eq offset length opposite isReadyTwin
      (.inr ⟨offsetBounded, lengthBounded⟩)
    rw [answer, given]
    split
    · exact .ok rfl ⟨readyAfter, readyNext⟩
    · exact .error ⟨readyAfter, readyNext⟩
  related_note note medium opposite states :=
    ⟨serves.ready_note note medium states.isReady,
      servesTwin.ready_note note opposite states.isReadyTwin⟩

/-- An unchanging source agrees with itself, whichever two states its media are in. -/
theorem IsUnchanging.agreesWith_self {ready : σ → Prop} (unchanging : source.IsUnchanging ready)
    : source.AgreesWith source (BothReady ready ready) where
  readExactly offset length _ _ := by
    obtain ⟨outcome, answers⟩ := unchanging.isSteady offset length
    exact .of_answers answers answers
  related_note note medium opposite states :=
    ⟨unchanging.ready_note note medium states.isReady,
      unchanging.ready_note note opposite states.isReadyTwin⟩

end Source

end DiscVolume
