import DiscVolume.Descriptor
import DiscVolume.Proofs.Descriptor.Tag

/-! Which descriptor is read. The identifier in the tag at the cursor decides, and nothing else. -/

namespace DiscVolume

open Decoder Sequencing

namespace Descriptor

variable {cursor next : Cursor} {kind : DescriptorKind}

theorem kindOf_tagNumber (kind : DescriptorKind) : kindOf kind.tagNumber = .ok kind := by
  rw [kindOf, DescriptorKind.ofTag?_tagNumber]

/-- The number that a kind is chosen by is its tag identifier. -/
theorem tagNumber_of_kindOf {number : Int} (chosen : kindOf number = .ok kind)
    : kind.tagNumber = number := by
  unfold kindOf at chosen
  split at chosen
  · next found =>
      cases chosen
      simpa using List.find?_some found
  · cases chosen

/-- Reading a descriptor starts with a look at the number at the cursor. Where there is none, or one
that no kind carries, the look is all; otherwise a descriptor of the kind that carries it is read.
-/
theorem decode_cases (cursor : Cursor)
    : decode cursor = .error (.truncated .lookAhead) cursor
      ∨ (∃ number, decode cursor = .error (.malformed (.unknownTag number)) cursor)
      ∨ ∃ kind : DescriptorKind,
          UInt16.ofNat (Bytes.littleEndian (cursor.rest.take 2)) = kind.tag
          ∧ decode cursor = decodeAs kind cursor := by
  by_cases present : 2 ≤ cursor.remaining
  · refine .inr ?_
    rw [decode, bind_of_ok (peekUInt16_eq_ok present)]
    cases chosen : kindOf _ with
    | ok kind =>
        refine .inr ⟨kind, ?_, rfl⟩
        exact UInt16.toNat_inj.mp (Int.ofNat_inj.mp (tagNumber_of_kindOf chosen).symm)
    | error failure =>
        unfold kindOf at chosen
        split at chosen
        · cases chosen
        · cases chosen
          exact .inl ⟨_, rfl⟩
  · have missing : peekUInt16 cursor = .error (.truncated .lookAhead) cursor :=
      if_neg fun covers => present (Bytes.covers_iff.mp covers)
    exact .inl (bind_of_error missing)

/-- A tag that names a kind is read as the start of a descriptor of that kind. -/
theorem decode_eq_decodeAs (present : Tag.size ≤ cursor.remaining)
    (named : (Tag.ofBytes (cursor.rest.take Tag.size)).identifier = kind.tag)
    : decode cursor = decodeAs kind cursor := by
  have start : UInt16.ofNat (Bytes.littleEndian (cursor.rest.take 2)) = kind.tag := by
    rw [← named, Tag.ofBytes, Tag.field_eq _ (by decide), List.drop_zero]
  have looked : peekUInt16 cursor = .ok kind.tag cursor := by
    rw [peekUInt16_eq_ok (Nat.le_trans (by decide) present), start]
  have settled : Decoder.settle (kindOf kind.tag.toNat) cursor = .ok kind cursor :=
    settle_eq_ok.mpr ⟨kindOf_tagNumber kind, rfl⟩
  rw [decode, bind_of_ok looked, bind_of_ok settled]

/-- The bytes of a tag that names a kind are enough, whatever follows them. -/
theorem decode_append_eq_decodeAs {raw : Bytes} (length : raw.length = Tag.size)
    (named : (Tag.ofBytes raw).identifier = kind.tag) (offset : Nat) (following : Bytes)
    : decode ⟨offset, raw ++ following⟩ = decodeAs kind ⟨offset, raw ++ following⟩ := by
  refine decode_eq_decodeAs ?_ ?_
  · rw [Cursor.remaining, List.length_append, length]
    exact Nat.le_add_right _ _
  · rw [← length, List.take_left, named]

/-- What is read as a file identifier starts with the tag of one. -/
theorem decode_eq_fileIdentifier {identifier : FileIdentifier}
    (found : decode cursor = .ok (.fileIdentifier identifier) next)
    : FileIdentifier.decode cursor = .ok identifier next := by
  obtain ⟨_, _, looked, found⟩ := bind_eq_ok.mp found
  obtain ⟨kind, _, chosen, read⟩ := bind_eq_ok.mp found
  obtain rfl := stays_of_peekUInt16 looked
  obtain ⟨-, rfl⟩ := settle_eq_ok.mp chosen
  cases kind with
  | fileIdentifier =>
      obtain ⟨_, found, same⟩ := map_eq_ok.mp read
      cases same
      exact found
  | _ =>
      obtain ⟨_, -, same⟩ := map_eq_ok.mp read
      cases same

end Descriptor

end DiscVolume
