import DiscVolume.Proofs.Medium.Alike
import DiscVolume.Proofs.Volume.Acceptance
import DiscVolume.Proofs.Volume.Blocks

/-! One volume on two sources that agree. The same structures are found when it is opened, and the
same entries on all ways that lead from them.
-/

namespace DiscVolume

/-- A volume with the same structures, read from another source. -/
def Volume.over (volume : Volume σ) (twin : Source τ) : Volume τ where
  source := twin
  recognition := volume.recognition
  anchor := volume.anchor
  mainSequence := volume.mainSequence
  primary := volume.primary
  partition := volume.partition
  logical := volume.logical
  fileSet := volume.fileSet

/-- One volume on two sources that agree. -/
inductive Volume.IsTwin (related : σ → τ → Prop) (volume : Volume σ) : Volume τ → Prop where
  | over {twin : Source τ} (agrees : volume.source.AgreesWith twin related)
      : IsTwin related volume (volume.over twin)

namespace Source

variable {source : Source σ} {twin : Source τ}

theorem AgreesWith.decodeSector {related : σ → τ → Prop} (agrees : source.AgreesWith twin related)
    {sector : Nat} (bounded : ((sector * sectorSize : Nat) : Int) < indexLimit)
    (decoder : Decoder α)
    : Alike related (· = ·) (source.decodeSector sector decoder)
        (twin.decodeSector sector decoder) := by
  have place : (sector : Int) * sectorSize = (sector * sectorSize : Nat) := by omega
  unfold Source.decodeSector
  rw [place]
  exact (agrees.readExactly _ _ bounded (by decide)).bind_eq fun _ => .settle _

theorem AgreesWith.descriptorAt {related : σ → τ → Prop} (agrees : source.AgreesWith twin related)
    {sector : Nat} (bounded : ((sector * sectorSize : Nat) : Int) < indexLimit)
    (kind : DescriptorKind) (select : Descriptor → Option α)
    : Alike related (· = ·) (source.descriptorAt sector kind select)
        (twin.descriptorAt sector kind select) := by
  refine (agrees.decodeSector bounded _).bind_eq fun descriptor => ?_
  cases select descriptor with
  | some value => exact .pure rfl
  | none => exact .throw _

variable {image : Bytes} {ready : σ → Prop} {readyTwin : τ → Prop}

/-- Sequences that are searched for on one image come out alike: there is but one outcome. -/
theorem ServesToEnd.sequenceFrom_alike (serves : source.ServesToEnd image ready)
    (servesTwin : twin.ServesToEnd image readyTwin) {sector : Nat} (reaches : Reaches image sector)
    (decoder : Decoder α) (isLast : α → Bool)
    : Alike (BothReady ready readyTwin) (· = ·) (source.sequenceFrom decoder isLast sector)
        (twin.sequenceFrom decoder isLast sector) := by
  obtain ⟨outcome, search, answers⟩ := sequenceFrom_answers serves reaches decoder isLast
  obtain ⟨again, searchAgain, given⟩ := sequenceFrom_answers servesTwin reaches decoder isLast
  cases search.unique searchAgain
  exact .of_answers answers given

end Source

namespace Volume

-----------------------------------------------------------------------------------------
-- Opening
-----------------------------------------------------------------------------------------

section

variable {source : Source σ} {twin : Source τ} {image : Bytes} {ready : σ → Prop}
variable {readyTwin : τ → Prop}

/-- On sources that serve one image the same structures are found. -/
theorem ofSource_alike (serves : source.ServesToEnd image ready)
    (servesTwin : twin.ServesToEnd image readyTwin)
    : Alike (BothReady ready readyTwin) (IsTwin (BothReady ready readyTwin))
        (ofSource source) (ofSource twin) := by
  have agrees := serves.toServes.agreesWith servesTwin.toServes
  have small : Source.Reaches image recognitionSector := .inr (by decide)
  -- How far a sequence goes depends on what is found, so it is compared as a whole.
  refine (serves.sequenceFrom_alike servesTwin small _ _).bind_eq fun recognition => ?_
  refine (agrees.tell _).bind_eq fun _ => ?_
  split
  · exact .throw _
  · refine (agrees.descriptorAt (by decide) _ _).bind_eq fun anchor => ?_
    refine (serves.sequenceFrom_alike servesTwin (reaches_toNat _ _) _ _).bind_eq fun main => ?_
    refine (agrees.tell _).bind_eq fun _ => ?_
    refine (Alike.settle _).bind_eq fun primary => (Alike.settle _).bind_eq fun partition => ?_
    refine (Alike.settle _).bind_eq fun logical => ?_
    refine (agrees.descriptorAt (sector_offset_lt _) _ _).bind_eq fun fileSet => ?_
    exact .pure (.over agrees)

theorem ofSupply_alike {supply : Supply σ} {supplyTwin : Supply τ}
    (chosen : supply.toSource = .ok source) (chosenTwin : supplyTwin.toSource = .ok twin)
    (serves : source.ServesToEnd image ready) (servesTwin : twin.ServesToEnd image readyTwin)
    : Alike (BothReady ready readyTwin) (IsTwin (BothReady ready readyTwin))
        (ofSupply supply) (ofSupply supplyTwin) := by
  have agrees := serves.toServes.agreesWith servesTwin.toServes
  have supplied : Alike (BothReady ready readyTwin)
      (fun found foundTwin => found = source ∧ foundTwin = twin)
      (Access.settle supply.toSource) (Access.settle supplyTwin.toSource) := by
    rw [chosen, chosenTwin]
    exact .pure ⟨rfl, rfl⟩
  refine supplied.bind ?_
  rintro _ _ ⟨rfl, rfl⟩
  exact (agrees.tell _).bind_eq fun _ => (ofSource_alike serves servesTwin).blaming _

end

-----------------------------------------------------------------------------------------
-- Directories
-----------------------------------------------------------------------------------------

section

variable {volume : Volume σ} {twin : Source τ} {related : σ → τ → Prop}

theorem fileEntryAt_alike (agrees : volume.source.AgreesWith twin related) {block : Nat}
    (recorded : block < UInt32.size)
    : Alike related (· = ·) (volume.fileEntryAt block) ((volume.over twin).fileEntryAt block) :=
  agrees.descriptorAt (offsetOf_lt recorded) _ _

theorem root_alike (agrees : volume.source.AgreesWith twin related)
    : Alike related (· = ·) volume.root (volume.over twin).root :=
  ((fileEntryAt_alike agrees (UInt32.toNat_lt _)).blaming _).bind_eq fun _ => .pure rfl

theorem entriesOf_alike (agrees : volume.source.AgreesWith twin related) (parent : Entry)
    (identifiers : List FileIdentifier)
    : Alike related (· = ·) (volume.entriesOf parent identifiers)
        ((volume.over twin).entriesOf parent identifiers) := by
  induction identifiers with
  | nil => exact .pure rfl
  | cons identifier others ih =>
      rw [entriesOf, entriesOf]
      split
      · refine (fileEntryAt_alike agrees (UInt32.toNat_lt _)).bind_eq fun record => ?_
        exact ih.bind_eq fun more => .pure rfl
      · exact ih

theorem entriesIn_alike (agrees : volume.source.AgreesWith twin related) (parent : Entry)
    (size : Nat) (data : Bytes)
    : Alike related (· = ·) (volume.entriesIn parent size data)
        ((volume.over twin).entriesIn parent size data) := by
  refine (entriesOf_alike agrees parent _).bind_eq fun entries => ?_
  split
  · exact .pure rfl
  · exact .throw _

theorem entriesAt_alike (agrees : volume.source.AgreesWith twin related) (parent : Entry)
    {pieces : List (Nat × Nat)}
    (bounded : ∀ piece ∈ pieces, piece.1 < UInt32.size ∧ piece.2 < 0x40000000)
    : Alike related (· = ·) (volume.entriesAt parent pieces)
        ((volume.over twin).entriesAt parent pieces) := by
  induction pieces with
  | nil => exact .pure rfl
  | cons piece others ih =>
      obtain ⟨block, size⟩ := piece
      obtain ⟨blockBounded, sizeBounded⟩ := bounded _ (.head _)
      have whole := sectorsFor_mul_lt sizeBounded
      refine (agrees.readExactly _ _ (offsetOf_lt blockBounded) whole).bind_eq fun data => ?_
      refine (entriesIn_alike agrees parent size data).bind_eq fun entries => ?_
      exact (ih fun piece found => bounded piece (.tail _ found)).bind_eq fun more => .pure rfl

theorem entriesFor_alike (agrees : volume.source.AgreesWith twin related) (parent : Entry)
    : Alike related (· = ·) (volume.entriesFor parent) ((volume.over twin).entriesFor parent) := by
  unfold entriesFor
  split
  · exact entriesIn_alike agrees parent _ _
  · exact entriesAt_alike agrees parent fun piece member =>
      ⟨FileData.block_lt _ piece member, FileData.length_lt _ piece member⟩

theorem readDirectory_alike (agrees : volume.source.AgreesWith twin related) (parent : Entry)
    : Alike related (· = ·) (volume.readDirectory parent)
        ((volume.over twin).readDirectory parent) := by
  unfold readDirectory
  split
  · exact .throw _
  · refine ((entriesFor_alike agrees parent).blaming _).bind_eq fun entries => ?_
    exact (agrees.tell _).bind_eq fun _ => .pure rfl

theorem follow_alike (agrees : volume.source.AgreesWith twin related) (path : String)
    (names : List String) (entry : Entry)
    : Alike related (· = ·) (volume.follow path entry names)
        ((volume.over twin).follow path entry names) := by
  induction names generalizing entry with
  | nil => exact .pure rfl
  | cons name others ih =>
      rw [follow, follow]
      split
      · exact .throw _
      · refine (readDirectory_alike agrees entry).bind_eq fun entries => ?_
        split
        · exact ih _
        · exact .throw _

theorem lookup_alike (agrees : volume.source.AgreesWith twin related) (path : String)
    : Alike related (· = ·) (volume.lookup path) ((volume.over twin).lookup path) :=
  (root_alike agrees).bind_eq fun root => follow_alike agrees path _ root

end

end Volume

end DiscVolume
