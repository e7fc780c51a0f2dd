import DiscVolume.Cursor.Request
import DiscVolume.Descriptor.Tag
import DiscVolume.Proofs.Cursor.Verdicts
import DiscVolume.Sector

/-! Guards of a cursor. Sizes of either sign are checked where a cursor is asked from outside. Those
that are read from an image, or worked out from what is read, always pass, so a request with such
sizes fails only with a verdict on the image.
-/

namespace DiscVolume

open Decoder

/-- Padding goes on to the next multiple of 4, and never back. -/
theorem padding_bounds (position : Int) : 0 ≤ padding position ∧ padding position < 4 := by
  rw [padding, Int.fdiv_eq_ediv_of_nonneg _ (by decide)]
  omega

namespace Cursor

theorem sized_of_nonneg {size : Int} (h : 0 ≤ size) (decoder : Nat → Decoder α)
    : sized size decoder = decoder size.toNat :=
  if_neg (by omega)

/-- What pads a record passes the guard that is left out where records are read. -/
theorem sized_padding (position : Int)
    : sized (padding position) Decoder.skip = Decoder.skip (padding position).toNat :=
  sized_of_nonneg (padding_bounds position).1 _

end Cursor

/-- The sum of a tag is taken only where the tag has all its bytes. -/
theorem TagChecksum.ofBytes_of_peek {cursor next : Cursor} {raw : Bytes}
    (peeked : peek Tag.size cursor = .ok raw next)
    : ofBytes raw = .ok (ofTag raw) := by
  unfold peek at peeked
  split at peeked
  · next covered =>
      cases peeked
      have enough := Bytes.covers_iff.mp covered
      rw [ofBytes, if_neg (by rw [List.length_take]; unfold place Tag.size at *; omega)]
  · cases peeked

namespace Layout

instance (width : Width) : Judging (number width) := by unfold number; infer_instance

instance (item : Item) : Judging item.decode := by
  cases item <;> (unfold Item.decode; infer_instance)

instance (layout : Layout) : Judging layout.decodeItems := by
  induction layout with
  | nil => unfold decodeItems; infer_instance
  | cons item others ih => unfold decodeItems; infer_instance

end Layout

namespace Cursor

/-- A request with a size that is not negative, and not more than a compound may have. -/
def Request.IsPlain : Request → Prop
  | .peek count | .skip count | .bytes count | .text count | .dstring count
  | .dcharacters count => 0 ≤ count
  | .compound layout => layout.size ≤ Layout.sizeLimit
  | _ => True

/-- A look at the cursor itself reads nothing. -/
instance (f : Cursor → Reply) : Judging (do return f (← get)) where
  isVerdict h := by cases h

/-- A plain request fails only with a verdict on the bytes. -/
theorem Request.judging {request : Request} (plain : request.IsPlain) : Judging request.run := by
  cases request with
  | skip count | bytes count | text count | dstring count =>
      rw [run, sized_of_nonneg plain]
      infer_instance
  | peek count =>
      have same : look count = Decoder.peek count.toNat := by
        funext cursor
        exact if_pos plain
      rw [run, same]
      infer_instance
  | dcharacters count =>
      have same : dcharactersOf count = Decoder.dcharacters count.toNat :=
        if_neg (Int.not_lt.mpr plain)
      rw [run, same]
      infer_instance
  | compound layout =>
      have same : layout.decode = (do Decoder.require layout.size; layout.decodeItems) :=
        if_neg (Nat.not_lt.mpr plain)
      rw [run, same]
      infer_instance
  | size | offset | remaining | atEnd =>
      rw [run]
      infer_instance
  | uint8 | uint16 | uint32 | uint48 | uint64 | peekUInt16 | timestamp =>
      rw [run]
      infer_instance

/-- The guards that decoders do without, since they pass whatever the bytes are: no padding has a
negative size, a tag whose checksum is taken has all its bytes, and a request of a size that may be
asked for fails only with a verdict on the bytes.
-/
structure GuardsPass : Prop where
  padding : ∀ position, sized (DiscVolume.padding position) Decoder.skip
    = Decoder.skip (DiscVolume.padding position).toNat
  checksum : ∀ (cursor next : Cursor) (raw : Bytes), peek Tag.size cursor = .ok raw next
    → TagChecksum.ofBytes raw = .ok (TagChecksum.ofTag raw)
  plain : ∀ request : Request, request.IsPlain → Judging request.run

theorem guardsPass : GuardsPass where
  padding := sized_padding
  checksum _ _ _ := TagChecksum.ofBytes_of_peek
  plain _ := Request.judging

end Cursor

end DiscVolume
