import DiscVolume.Proofs.Cursor.Progress

/-! Where the data ends. A use that comes upon the end of its buffer leaves the cursor where it was,
unless it reads d-characters whose compression identifier is the last that there is of them.
-/

namespace DiscVolume.Cursor

open Decoder Sequencing

variable {truncation : Truncation}

/-- A function of what is found fails only as the finding does. -/
theorem map_ne_error {outcome : Except Failure α} {failure : Failure}
    (differs : outcome ≠ .error failure) (f : α → β)
    : f <$> outcome ≠ .error failure := by
  intro failed
  cases outcome with
  | ok value => cases failed
  | error own =>
      cases failed
      exact differs rfl

theorem dcharactersField_ne_truncated (field : Bytes)
    : dcharactersField field ≠ .error (.truncated truncation) := by
  intro failed
  cases field with
  | nil => cases failed
  | cons compression data =>
      obtain ⟨fault, malformed⟩ := dcharactersText_eq_error failed
      cases malformed

/-- What is wrong with a field that is there is not that it ends too early. -/
theorem Request.reading_ne_truncated (request : Request) (field : Bytes)
    : request.reading field ≠ .error (.truncated truncation) := by
  cases request with
  | dstring size =>
      refine map_ne_error (fun failed => ?_) Reply.text
      cases dstringText_eq_error failed
  | dcharacters length => exact map_ne_error (dcharactersField_ne_truncated field) Reply.text
  | size | offset | remaining | atEnd | peekUInt16 | peek | uint8 | uint16 | uint32 | uint48
  | uint64 | skip | bytes | text | timestamp | compound =>
      intro failed
      cases failed

theorem Use.reading_ne_truncated (use : Use α) (field : Bytes)
    : use.reading field ≠ .error (.truncated truncation) := by
  cases use with
  | request asked => exact map_ne_error (asked.reading_ne_truncated field) Sum.inl
  | compound format =>
      intro failed
      cases failed

/-- A use that comes upon the end of the data leaves the cursor in place, unless it reads
d-characters that are cut. These always come upon the end of the data, behind their compression
identifier.
-/
theorem Use.place_of_truncated (use : Use α) (cursor : Cursor)
    : (¬use.IsCut cursor → ∀ truncation next,
        use.run cursor = .error (.truncated truncation) next → next = cursor)
      ∧ (use.IsCut cursor →
        ∃ truncation, use.run cursor = .error (.truncated truncation) (cursor.advance 1)) := by
  refine ⟨?_, run_of_isCut⟩
  intro notCut truncation next failed
  cases use.course cursor with
  | looks isLook outcome course =>
      rw [course] at failed
      exact (settle_eq_error.mp failed).2
  | reads isRead sized enough course =>
      rw [course] at failed
      exact absurd (settle_eq_error.mp failed).1 (use.reading_ne_truncated _)
  | wants isRead sized short _ course | refused isRead unsized _ course =>
      rw [course] at failed
      cases failed
      rfl
  | cut isCut => exact absurd isCut notCut
  | negative isText there negative course =>
      rw [course] at failed
      cases failed

/-- The place behind two bytes of four. -/
def behindTwo : Cursor := (ofBytes [1, 2, 3, 4]).advance 2

/-- Four bytes are wanted where there are two, and nothing is passed over. -/
theorem Use.place_of_truncated_number
    : ¬(Use.request .uint32 : Use Unit).IsCut behindTwo
      ∧ (Use.request .uint32 : Use Unit).run behindTwo
        = .error (.truncated (.buffer 4 2 4)) behindTwo
      ∧ ∀ truncation next, (Use.request .uint32 : Use Unit).run behindTwo
        = .error (.truncated truncation) next → next = behindTwo := by
  have notCut : ¬(Use.request .uint32 : Use Unit).IsCut behindTwo := by
    rintro ⟨length, isText, -⟩
    cases isText
  exact ⟨notCut, rfl, (Use.place_of_truncated _ behindTwo).1 notCut⟩

/-- Of five bytes of d-characters there are two, and the cursor is left between them. -/
theorem Use.place_of_cut_text
    : let start := ofBytes [8, 65]
      (Use.request (.dcharacters 5) : Use Unit).run start
        = .error (.truncated (.buffer 4 1 2)) (start.advance 1)
      ∧ (start.advance 1).offset ≠ start.offset :=
  ⟨rfl, by decide⟩

end DiscVolume.Cursor
