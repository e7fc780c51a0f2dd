import DiscVolume.Proofs.Directory.Children

/-! Directories with the same file entry have the same entries, apart from the parent that these
name. What is found in a directory depends on its file entry and the medium alone.
-/

namespace DiscVolume

/-- The same entry as a child of another directory. -/
def Entry.under (parent : Entry) : Entry → Entry
  | .root record volumeName => .root record volumeName
  | .child record identifier _ => .child record identifier parent

namespace Volume

variable {volume : Volume σ} {ready : σ → Prop}

-----------------------------------------------------------------------------------------
-- Reading directories is steady
-----------------------------------------------------------------------------------------

theorem fileEntryAt_isSteady (steady : volume.source.IsSteady ready) (block : Nat)
    : (volume.fileEntryAt block).IsSteady ready := by
  have sector : (volume.source.decodeSector (volume.sectorOf block) Descriptor.decode).IsSteady
      ready := by
    unfold Source.decodeSector
    rw [← Int.natCast_mul]
    exact (steady _ _).bind (fun _ => .settle _)
  refine sector.bind (fun descriptor => ?_)
  split
  · exact .pure _
  · exact .throw _

theorem root_isSteady (steady : volume.source.IsSteady ready) : volume.root.IsSteady ready :=
  (fileEntryAt_isSteady steady _).blaming.bind (fun _ => .pure _)

/-- Following the records of a directory is steady, by induction on the records. -/
theorem entriesOf_isSteady (steady : volume.source.IsSteady ready) (parent : Entry)
    (identifiers : List FileIdentifier)
    : (volume.entriesOf parent identifiers).IsSteady ready := by
  induction identifiers with
  | nil => exact .pure _
  | cons identifier others ih =>
      unfold entriesOf
      split
      · exact (fileEntryAt_isSteady steady _).bind (fun _ => ih.bind (fun _ => .pure _))
      · exact ih

theorem entriesIn_isSteady (steady : volume.source.IsSteady ready) (parent : Entry) (size : Nat)
    (data : Bytes)
    : (volume.entriesIn parent size data).IsSteady ready := by
  refine (entriesOf_isSteady steady parent _).bind (fun entries => ?_)
  cases (Directory.records size (Cursor.ofBytes data)).2 with
  | none => exact .pure _
  | some failure => exact .throw _

theorem entriesAt_isSteady (steady : volume.source.IsSteady ready) (parent : Entry)
    (pieces : List (Nat × Nat))
    : (volume.entriesAt parent pieces).IsSteady ready := by
  induction pieces with
  | nil => exact .pure _
  | cons piece others ih =>
      refine (steady _ _).bind (fun data => ?_)
      exact (entriesIn_isSteady steady parent _ data).bind (fun _ => ih.bind (fun _ => .pure _))

theorem entriesFor_isSteady (steady : volume.source.IsSteady ready) (parent : Entry)
    : (volume.entriesFor parent).IsSteady ready := by
  unfold entriesFor
  split
  · exact entriesIn_isSteady steady parent _ _
  · exact entriesAt_isSteady steady parent _

-----------------------------------------------------------------------------------------
-- Entries under another parent
-----------------------------------------------------------------------------------------

/-- The same records lead to the same entries under another parent. -/
theorem entriesOf_under (parent other : Entry) (identifiers : List FileIdentifier)
    : volume.entriesOf other identifiers
      = List.map other.under <$> volume.entriesOf parent identifiers := by
  induction identifiers with
  | nil => rfl
  | cons identifier others ih =>
      unfold entriesOf
      split
      · simp only [ih, map_bind, bind_map_left, map_pure]
        rfl
      · exact ih

theorem entriesIn_under (parent other : Entry) (size : Nat) (data : Bytes)
    : volume.entriesIn other size data
      = List.map other.under <$> volume.entriesIn parent size data := by
  unfold entriesIn
  generalize Directory.records size (Cursor.ofBytes data) = spelled
  obtain ⟨identifiers, failure⟩ := spelled
  cases failure with
  | none => simp only [entriesOf_under parent other, bind_pure]
  | some failure =>
      simp only [entriesOf_under parent other, bind_map_left, map_bind]
      rfl

theorem entriesAt_under (parent other : Entry) (pieces : List (Nat × Nat))
    : volume.entriesAt other pieces
      = List.map other.under <$> volume.entriesAt parent pieces := by
  induction pieces with
  | nil => rfl
  | cons piece others ih =>
      unfold entriesAt
      simp only [entriesIn_under parent other, ih, map_bind, bind_map_left, map_pure,
        List.map_append]

/-- What a directory holds depends on its file entry alone. -/
theorem entriesFor_under {parent other : Entry} (sameRecord : other.record = parent.record)
    : volume.entriesFor other = List.map other.under <$> volume.entriesFor parent := by
  unfold entriesFor
  rw [sameRecord]
  split
  · exact entriesIn_under parent other _ _
  · exact entriesAt_under parent other _

end Volume

end DiscVolume
