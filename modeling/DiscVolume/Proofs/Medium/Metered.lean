import DiscVolume.Proofs.Medium.Alike

/-! Requests, counted. A metered source keeps the number of requests beside its medium and answers
as the source that it meters. What a step costs is how far it moves that number on, while it finds
what the same step finds without a meter.
-/

namespace DiscVolume

open Sequencing

/-- A source that also counts the requests that are made of it. -/
def Source.metered (source : Source σ) : Source (Nat × σ) where
  readAt offset length := do
    modify fun (requests, medium) => (requests + 1, medium)
    (source.readAt offset length).beside
  capacity := source.capacity
  note note := fun (requests, medium) => (requests, source.note note medium)

namespace Access

/-- What a step finds may be looked at before or after its faults are blamed. -/
theorem map_blaming (view : α → β) (activity : Activity) (step : Access σ α)
    : view <$> blaming activity step = blaming activity (view <$> step) := by
  funext medium
  change EStateM.map view (blaming activity step) medium
    = blaming activity (EStateM.map view step) medium
  cases result : step medium with
  | ok value after => simp only [EStateM.map, blaming, result]
  | error failure after =>
      cases failure with
      | medium fault =>
          simp only [EStateM.map, blaming, result]
          cases fault.kind.concernsData <;> rfl
      | _ => simp only [EStateM.map, blaming, result]

/-- (Costs ready metered plain budget) says that a metered step finds what a plain one finds, on any
ready medium, and makes no more requests than a budget allows.
-/
def Costs (ready : σ → Prop) (metered : Access (Nat × σ) α) (plain : Access σ α) (budget : Nat)
    : Prop :=
  ∀ requests medium, ready medium →
    ∃ spent ≤ budget, metered (requests, medium) = plain.beside (requests + spent, medium)

namespace Costs

variable {ready later : σ → Prop} {metered : Access (Nat × σ) α} {plain : Access σ α}
variable {budget total : Nat}

/-- A larger budget allows for as much. -/
theorem mono (costs : Costs ready metered plain budget) (h : budget ≤ total)
    : Costs ready metered plain total := by
  intro requests medium isReady
  obtain ⟨spent, within, same⟩ := costs requests medium isReady
  exact ⟨spent, Nat.le_trans within h, same⟩

/-- What a step costs on any medium it costs on the ready ones. -/
theorem anywhere (costs : Costs (fun _ => True) metered plain budget)
    : Costs ready metered plain budget :=
  fun requests medium _ => costs requests medium trivial

/-- A fact that comes with being ready may be used. -/
theorem given {fact : Prop} (costs : fact → Costs ready metered plain budget)
    : Costs (fun medium => ready medium ∧ fact) metered plain budget :=
  fun requests medium isReady => costs isReady.2 requests medium isReady.1

theorem pure (value : α) (budget : Nat)
    : Costs ready (Pure.pure value) (Pure.pure value) budget :=
  fun _ _ _ => ⟨0, Nat.zero_le _, rfl⟩

theorem throw (failure : Failure) (budget : Nat)
    : Costs (α := α) ready (MonadExcept.throw failure) (MonadExcept.throw failure) budget :=
  fun _ _ _ => ⟨0, Nat.zero_le _, rfl⟩

theorem settle (outcome : Except Failure α) (budget : Nat)
    : Costs ready (Access.settle outcome) (Access.settle outcome) budget := by
  cases outcome with
  | ok value => exact pure value budget
  | error failure => exact throw failure budget

/-- What a first step leaves of a budget is for the steps after it. -/
theorem bind {others : α → Access (Nat × σ) β} {rest : α → Access σ β}
    (first : Costs ready metered plain budget) (enough : budget ≤ total)
    (keeps : ∀ medium value after, ready medium → plain medium = .ok value after → later after)
    (following : ∀ value, Costs later (others value) (rest value) (total - budget))
    : Costs ready (metered >>= others) (plain >>= rest) total := by
  intro requests medium isReady
  obtain ⟨spent, within, same⟩ := first requests medium isReady
  cases found : plain medium with
  | ok value after =>
      rw [beside_of_ok found] at same
      obtain ⟨again, withinRest, sameAgain⟩ :=
        following value (requests + spent) after (keeps _ _ _ isReady found)
      refine ⟨spent + again, by omega, ?_⟩
      rw [bind_of_ok same, sameAgain, beside, beside, bind_of_ok found, Nat.add_assoc]
  | error failure after =>
      rw [beside_of_error found] at same
      refine ⟨spent, Nat.le_trans within enough, ?_⟩
      rw [bind_of_error same, beside_of_error (bind_of_error found)]

/-- Where no medium needs to be ready, nothing has to be kept. -/
theorem bind_anywhere {others : α → Access (Nat × σ) β} {rest : α → Access σ β}
    (first : Costs (fun _ => True) metered plain budget) (enough : budget ≤ total)
    (following : ∀ value, Costs (fun _ => True) (others value) (rest value) (total - budget))
    : Costs (fun _ => True) (metered >>= others) (plain >>= rest) total :=
  first.bind enough (fun _ _ _ _ _ => trivial) following

theorem blaming (activity : Activity) (costs : Costs ready metered plain budget)
    : Costs ready (Access.blaming activity metered) (Access.blaming activity plain) budget := by
  intro requests medium isReady
  obtain ⟨spent, within, same⟩ := costs requests medium isReady
  refine ⟨spent, within, ?_⟩
  cases found : plain medium with
  | ok value after =>
      rw [beside_of_ok found] at same
      rw [beside_of_ok (blaming_eq_ok.mpr found), blaming_eq_ok.mpr same]
  | error failure after =>
      rw [beside_of_error found] at same
      cases failure with
      | medium fault =>
          simp only [beside, Access.blaming, found, same]
          split <;> rfl
      | _ => simp only [beside, Access.blaming, found, same]

end Costs

end Access

namespace Source

/-- A metered source answers as the source does, and has counted the request. -/
theorem readExactly_metered (source : Source σ) (offset : Int) (length requests : Nat) (medium : σ)
    : source.metered.readExactly offset length (requests, medium)
      = (source.readExactly offset length).beside (requests + 1, medium) := by
  have answer : source.metered.readAt offset length (requests, medium)
      = (source.readAt offset length).beside (requests + 1, medium) := rfl
  cases found : source.readAt offset length medium with
  | ok data after =>
      rw [Access.beside_of_ok found] at answer
      rw [readExactly_of_readAt answer, Access.beside, readExactly_of_readAt found]
      split <;> rfl
  | error failure after =>
      rw [Access.beside_of_error found] at answer
      exact (bind_of_error answer).trans (Access.beside_of_error (bind_of_error found)).symm

theorem readExactly_costs (source : Source σ) (offset : Int) (length : Nat)
    : Access.Costs (fun _ => True) (source.metered.readExactly offset length)
        (source.readExactly offset length) 1 :=
  fun _ _ _ => ⟨1, Nat.le_refl 1, readExactly_metered source offset length _ _⟩

/-- To take note of progress asks for nothing. -/
theorem tell_costs (source : Source σ) (note : Note)
    : Access.Costs (fun _ => True) (source.metered.tell note) (source.tell note) 0 :=
  fun _ _ _ => ⟨0, Nat.le_refl 0, rfl⟩

end Source

namespace Supply

/-- What is supplied, read through a meter. -/
def metered : Supply σ → Supply (Nat × σ)
  | .direct source => .direct source.metered
  | .file form source => .file form source.metered

theorem toSource_metered {supply : Supply σ} {source : Source σ}
    (chosen : supply.toSource = .ok source)
    : supply.metered.toSource = .ok source.metered := by
  cases supply with
  | direct =>
      cases chosen
      rfl
  | file form own =>
      rw [toSource] at chosen
      split at chosen
      · next binary =>
          cases chosen
          exact if_pos binary
      · cases chosen

end Supply

end DiscVolume
