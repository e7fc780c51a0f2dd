import DiscVolume.Proofs.Reader.Alike

/-! Which source an image is read from makes no difference to those who read. A file with a position
of its own and packed contents that are cut without any check answer every call alike, down to the
reason of every failure.
-/

namespace DiscVolume.Visit

open Sequencing

variable {related : σ → τ → Prop} {supply : Supply σ} {supplyTwin : Supply τ}

/-- Twin visits have the same outcomes in all calls where the two supplies open twin volumes, by
induction on the calls.
-/
theorem IsTwin.outcomes_eq
    (opens : Alike related (Volume.IsTwin related) (Volume.ofSupply supply)
      (Volume.ofSupply supplyTwin))
    {visit : Visit σ} {twin : Visit τ} (twins : IsTwin related visit twin) (calls : List (Call σ))
    : visit.outcomes (calls.map (.through supply))
      = twin.outcomes (calls.map (.through supplyTwin)) := by
  induction calls generalizing visit twin with
  | nil => rfl
  | cons call others ih =>
      have alike : Alike (IsTwin related) (· = ·) (perform (call.through supply))
          (perform (call.through supplyTwin)) := by
        cases stays : call.opens with
        | false =>
            rw [Call.through_of_stays stays]
            exact perform_alike stays supplyTwin
        | true =>
            cases call with
            | openImage _ => exact perform_openImage_alike opens
            | _ => cases stays
      obtain ⟨same, after⟩ := step_of_alike alike twins
      rw [List.map_cons, List.map_cons, outcomes, outcomes, same, ih after]

/-- A file and the plain bytes that it holds cannot be told apart. Whatever new readers on the two
are asked for, one call after the other, and whatever the streams that they open are asked for,
the outcome is the same at every step: the same answer, or a failure for the same reason and so in
the same words. It does not matter where the position of the file was. No string of bytes is too
long for a file.
-/
theorem outcomes_through_file {contents : ByteArray} {file : ImageFile}
    (bounded : (contents.size : Int) < indexLimit) (holds : file.Holds contents)
    {supply : Supply ImageFile} (wraps : supply.toSource = .ok (ImageFile.source contents.size))
    (calls : List (Call ImageFile))
    : outcomes { medium := file } (calls.map (.through supply))
      = outcomes { medium := () } (calls.map (.through (.direct (.ofContents contents)))) := by
  have plain : (Supply.direct (.ofContents contents : Source Unit)).toSource = .ok _ := rfl
  have opens := Volume.ofSupply_alike wraps plain
    (ImageFile.servesToEnd_source bounded (Nat.le_refl _)) (.ofContents contents)
  exact IsTwin.outcomes_eq opens ⟨.closed, .nil, holds, trivial⟩ calls

/-- A file with the bare image, left somewhere among its first bytes. -/
def bareFile : ImageFile := { contents := ⟨bareImage.toArray⟩, position := 5 }

/-- The bare image is opened from the file as it is from the plain bytes. It has no root
directory, so looking for one fails for the same reason, as does what follows when the reader is
closed.
-/
theorem outcomes_through_file_bare
    : bareFile.Holds bareFile.contents
      ∧ (bareFile.contents.size : Int) < indexLimit
      ∧ outcomes { medium := bareFile }
          [.openImage (.direct (ImageFile.source bareFile.contents.size)), .root, .lookup "a",
            .close, .root]
        = outcomes { medium := () }
          [.openImage (.direct bareSource), .root, .lookup "a", .close, .root]
      ∧ outcome { medium := () } (.openImage (.direct bareSource)) = .ok .nothing := by
  have holds : bareFile.Holds bareFile.contents := ⟨rfl, rfl⟩
  have size : bareFile.contents.size = 257 * sectorSize :=
    List.size_toArray.trans (length_sectorsWith bareHeads 257)
  have bounded : (bareFile.contents.size : Int) < indexLimit := by
    rw [size]
    decide
  have wraps : (Supply.direct (ImageFile.source bareFile.contents.size)).toSource = .ok _ := rfl
  have same := outcomes_through_file bounded holds wraps
    [.openImage (.direct (ImageFile.source 0)), .root, .lookup "a", .close, .root]
  obtain ⟨-, after, opened, -⟩ := Reader.openImage_iff_acceptable_bare
  have found : perform (.openImage (.direct bareSource)) { medium := () } = .ok .nothing _ :=
    bind_of_ok (onReader_of_ok opened)
  refine ⟨holds, bounded, same, ?_⟩
  rw [outcome, found]

end DiscVolume.Visit
