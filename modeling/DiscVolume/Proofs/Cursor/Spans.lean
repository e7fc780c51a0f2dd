import DiscVolume.Proofs.Cursor.Relocation

/-! How many bytes a decoder passes over, where what it finds decides. The number and the value are
followed together through the steps of a decoder, so that a count that has been read can be compared
with what is read because of it.
-/

namespace DiscVolume.Decoder

open Sequencing

/-- Where a decoder succeeds, what it finds fits the number of bytes that it passes over. -/
def Spans (decoder : Decoder α) (fits : α → Nat → Prop) : Prop :=
  ∀ cursor value next, decoder cursor = .ok value next
    → ∃ count, next = cursor.advance count ∧ fits value count

namespace Spans

variable {fits : β → Nat → Prop}

theorem of_field {decoder : Decoder α} {size : Nat} [Field decoder size]
    : Spans decoder fun _ count => count = size :=
  fun _ _ _ found => ⟨size, Field.advances found, rfl⟩

theorem pure {value : β} (fit : fits value 0) : Spans (Pure.pure value) fits := by
  intro cursor found next same
  cases same
  exact ⟨0, rfl, fit⟩

/-- What fits the steps of a sequence fits the sequence. -/
theorem bind {first : Decoder α} {others : α → Decoder β} {own : α → Nat → Prop}
    (head : Spans first own)
    (tail : ∀ value count, own value count
      → Spans (others value) fun found rest => fits found (count + rest))
    : Spans (first >>= others) fits := by
  intro cursor found next whole
  obtain ⟨value, middle, foundFirst, foundOthers⟩ := bind_eq_ok.mp whole
  obtain ⟨count, rfl, fit⟩ := head _ _ _ foundFirst
  obtain ⟨rest, rfl, fitRest⟩ := tail value count fit _ _ _ foundOthers
  exact ⟨count + rest, Cursor.advance_advance .., fitRest⟩

/-- A field is passed over, whatever it holds. -/
theorem field {first : Decoder α} {others : α → Decoder β} {size : Nat} [Field first size]
    (tail : ∀ value, Spans (others value) fun found rest => fits found (size + rest))
    : Spans (first >>= others) fits :=
  bind of_field fun value _ same => same ▸ tail value

theorem position {others : Nat → Decoder β} (tail : ∀ place, Spans (others place) fits)
    : Spans (Decoder.position >>= others) fits :=
  fun cursor => tail cursor.offset cursor

theorem map {decoder : Decoder α} {f : α → β}
    (inner : Spans decoder fun value count => fits (f value) count)
    : Spans (f <$> decoder) fits := by
  intro cursor found next mapped
  obtain ⟨value, foundInner, rfl⟩ := map_eq_ok.mp mapped
  exact inner _ _ _ foundInner

theorem take (count : Nat)
    : Spans (Decoder.take count) fun bytes span => bytes.length = count ∧ span = count := by
  intro cursor bytes next found
  obtain ⟨enough, rfl, rfl⟩ := le_remaining_of_take found
  exact ⟨count, rfl, List.length_take_of_le enough, rfl⟩

/-- As many values are found as are counted, by induction on the count. -/
theorem times {decoder : Decoder α} {size : Nat} [Field decoder size] (count : Nat)
    : Spans (Decoder.times decoder count) fun values span =>
        values.length = count ∧ span = count * size := by
  induction count with
  | zero => exact pure ⟨rfl, (Nat.zero_mul size).symm⟩
  | succ count ih =>
      refine field fun value => bind ih fun values span ⟨length, span_eq⟩ => pure ⟨?_, ?_⟩
      · rw [List.length_cons, length]
      · rw [span_eq, Nat.succ_mul, Nat.add_zero, Nat.add_comm]

end Spans

end DiscVolume.Decoder
