import DiscVolume.Proofs.Cursor.Uses

/-! What a cursor passes over. Each use moves a cursor on or leaves it in place, whether it is
answered or fails, so a cursor stays within its buffer. What is passed over is passed over once, and
what is read is read from just that.
-/

namespace DiscVolume.Cursor

open Decoder Sequencing

variable {use : Use α} {uses : List (Use α)} {cursor next : Cursor}

-----------------------------------------------------------------------------------------
-- One use
-----------------------------------------------------------------------------------------

namespace Use

/-- The cursor behind a use, whether it is answered or fails. -/
def after (use : Use α) (cursor : Cursor) : Cursor :=
  match use.run cursor with
  | .ok _ next | .error _ next => next

/-- The bytes from a cursor to the cursor behind a use. -/
def passed (use : Use α) (cursor : Cursor) : Bytes :=
  cursor.rest.take ((use.after cursor).offset - cursor.offset)

theorem after_of_ok {answer : Reply ⊕ α} (answered : use.run cursor = .ok answer next)
    : use.after cursor = next := by rw [after, answered]

theorem after_of_error {failure : Failure} (failed : use.run cursor = .error failure next)
    : use.after cursor = next := by rw [after, failed]

theorem after_of_settle {outcome : Except Failure (Reply ⊕ α)}
    (settled : use.run cursor = settle outcome next)
    : use.after cursor = next := by
  cases outcome with
  | ok answer => exact after_of_ok settled
  | error failure => exact after_of_error settled

/-- A use moves on by bytes that are there, or by none. -/
theorem exists_after_eq (use : Use α) (cursor : Cursor)
    : ∃ count ≤ cursor.remaining, use.after cursor = cursor.advance count := by
  cases use.course cursor with
  | looks isLook outcome course => exact ⟨0, Nat.zero_le _, after_of_settle course⟩
  | reads isRead sized enough course => exact ⟨_, enough, after_of_settle course⟩
  | wants isRead sized short truncation course => exact ⟨0, Nat.zero_le _, after_of_error course⟩
  | refused isRead unsized failure course => exact ⟨0, Nat.zero_le _, after_of_error course⟩
  | cut isCut truncation course =>
      obtain ⟨length, -, there, -⟩ := isCut
      exact ⟨1, there, after_of_error course⟩
  | negative isText there negative course => exact ⟨1, there, after_of_error course⟩

theorem after_of_look (isLook : use.isRead = false) (cursor : Cursor)
    : use.after cursor = cursor := by
  cases use.course cursor with
  | looks isLook outcome course => exact after_of_settle course
  | reads isRead | wants isRead | refused isRead => cases isLook.symm.trans isRead
  | cut isCut =>
      obtain ⟨length, rfl, -⟩ := isCut
      cases isLook
  | negative isText =>
      subst isText
      cases isLook

/-- A read is answered just if its field is there and says something. Then the field is passed over,
and it is all that matters for the answer.
-/
theorem run_eq_ok_iff (isRead : use.isRead = true) {answer : Reply ⊕ α}
    : use.run cursor = .ok answer next
      ↔ ∃ size, use.fieldSize? = some size ∧ size ≤ cursor.remaining
        ∧ next = cursor.advance size ∧ use.reading (cursor.rest.take size) = .ok answer := by
  have failing {failure : Failure} {place : Cursor} (failed : use.run cursor = .error failure place)
      (noField : ∀ size, use.fieldSize? = some size → cursor.remaining < size)
      : use.run cursor = .ok answer next
        ↔ ∃ size, use.fieldSize? = some size ∧ size ≤ cursor.remaining
          ∧ next = cursor.advance size ∧ use.reading (cursor.rest.take size) = .ok answer := by
    rw [failed]
    constructor
    · intro answered
      cases answered
    · rintro ⟨size, sized, enough, -⟩
      exact absurd (noField size sized) (Nat.not_lt.mpr enough)
  cases use.course cursor with
  | looks isLook => cases isLook.symm.trans isRead
  | @reads _ size sized enough course =>
      rw [course, settle_eq_ok]
      constructor
      · rintro ⟨found, rfl⟩
        exact ⟨size, sized, enough, rfl, found⟩
      · rintro ⟨other, isSize, -, rfl, found⟩
        cases sized.symm.trans isSize
        exact ⟨found, rfl⟩
  | wants _ sized short truncation course =>
      refine failing course fun size isSize => ?_
      cases sized.symm.trans isSize
      exact short
  | refused _ unsized failure course =>
      refine failing course fun size isSize => ?_
      cases unsized.symm.trans isSize
  | cut isCut truncation course =>
      obtain ⟨length, rfl, -, short⟩ := isCut
      refine failing course fun size isSize => ?_
      have same : (length : Int) = size := Int.mem_toNat?.mp isSize
      omega
  | negative isText there negative course =>
      refine failing course fun size isSize => ?_
      subst isText
      have same : _ = (size : Int) := Int.mem_toNat?.mp isSize
      omega

end Use

-----------------------------------------------------------------------------------------
-- Runs
-----------------------------------------------------------------------------------------

/-- The cursor behind some uses, one after the other, whether they are answered or fail. -/
def afterAll (cursor : Cursor) (uses : List (Use α)) : Cursor :=
  uses.foldl (fun cursor use => use.after cursor) cursor

/-- What each of some uses passes over. -/
def passedAll : Cursor → List (Use α) → List Bytes
  | _, [] => []
  | cursor, use :: others => use.passed cursor :: passedAll (use.after cursor) others

/-- The answers of some uses, one after the other. -/
def answerAll : List (Use α) → Decoder (List (Reply ⊕ α))
  | [] => pure []
  | use :: others => do
      let answer ← use.run
      let more ← answerAll others
      return answer :: more

/-- A read is answered by just the bytes of its field, and a look has no field. -/
structure Use.Consumes (use : Use α) (piece : Bytes) (answer : Reply ⊕ α) : Prop where
  reads (isRead : use.isRead = true)
    : use.fieldSize? = some piece.length ∧ use.reading piece = .ok answer
  looks (isLook : use.isRead = false) : piece = []

/-- Uses with what each of them passes over and is answered. -/
inductive Consumed : List (Use α) → List Bytes → List (Reply ⊕ α) → Prop
  | nil : Consumed [] [] []
  | cons {use : Use α} {piece : Bytes} {answer : Reply ⊕ α} {uses : List (Use α)}
      {pieces : List Bytes} {answers : List (Reply ⊕ α)} (first : use.Consumes piece answer)
      (others : Consumed uses pieces answers)
      : Consumed (use :: uses) (piece :: pieces) (answer :: answers)

/-- Uses move on by the bytes that they pass over, by induction on the uses. -/
theorem exists_afterAll_eq (cursor : Cursor) (uses : List (Use α))
    : ∃ count ≤ cursor.remaining, cursor.afterAll uses = cursor.advance count
      ∧ (passedAll cursor uses).flatten = cursor.rest.take count := by
  induction uses generalizing cursor with
  | nil => exact ⟨0, Nat.zero_le _, rfl, rfl⟩
  | cons use others ih =>
      obtain ⟨first, enough, moved⟩ := use.exists_after_eq cursor
      obtain ⟨rest, enoughRest, movedRest, passedRest⟩ := ih (use.after cursor)
      rw [moved] at movedRest passedRest enoughRest
      rw [Cursor.remaining_advance] at enoughRest
      have passed : use.passed cursor = cursor.rest.take first := by
        rw [Use.passed, moved, advance, Nat.add_sub_cancel_left]
      refine ⟨first + rest, by omega, ?_, ?_⟩
      · change afterAll (use.after cursor) others = _
        rw [moved, movedRest, advance_advance]
      · rw [passedAll, List.flatten_cons, passed, moved, passedRest, rest_advance, List.take_add]

/-- A use that is answered passes over what it is answered from. -/
theorem Use.consumes_of_ok {answer : Reply ⊕ α} (answered : use.run cursor = .ok answer next)
    : use.Consumes (use.passed cursor) answer := by
  constructor
  · intro isRead
    obtain ⟨size, sized, enough, rfl, found⟩ := (Use.run_eq_ok_iff isRead).mp answered
    have passed : use.passed cursor = cursor.rest.take size := by
      rw [Use.passed, Use.after_of_ok answered, advance, Nat.add_sub_cancel_left]
    rw [passed, List.length_take_of_le enough]
    exact ⟨sized, found⟩
  · intro isLook
    rw [Use.passed, Use.after_of_look isLook, Nat.sub_self, List.take_zero]

/-- Uses that are all answered consume what they pass over. -/
theorem consumed_of_answerAll {answers : List (Reply ⊕ α)}
    (answered : answerAll uses cursor = .ok answers next)
    : next = cursor.afterAll uses ∧ Consumed uses (passedAll cursor uses) answers := by
  induction uses generalizing cursor answers with
  | nil =>
      cases answered
      exact ⟨rfl, .nil⟩
  | cons use others ih =>
      obtain ⟨answer, middle, first, rest⟩ := bind_ok_iff.mp answered
      obtain ⟨more, last, rest, same⟩ := bind_ok_iff.mp rest
      cases same
      obtain ⟨isLast, consumed⟩ := ih rest
      have moved := Use.after_of_ok first
      rw [← moved] at isLast consumed
      exact ⟨isLast, .cons (Use.consumes_of_ok first) consumed⟩

/-- Whatever is asked of a cursor, it stays within its buffer, tells where it is, and never goes
back. What only looks moves nothing. A read is answered just if its field is there and says
something; it passes over the field, and only the bytes of the field matter for the answer. All that
is passed over is the buffer up to the cursor, and if every use is answered, it is what they are
answered from.
-/
theorem stays_within (buffer : Bytes) (uses : List (Use α))
    : let cursor := (ofBytes buffer).afterAll uses
      (cursor.offset ≤ buffer.length ∧ cursor.rest = buffer.drop cursor.offset)
      ∧ (Request.size.run cursor = .ok (.number buffer.length) cursor
        ∧ Request.offset.run cursor = .ok (.number cursor.offset) cursor
        ∧ Request.remaining.run cursor = .ok (.number (buffer.length - cursor.offset)) cursor
        ∧ Request.atEnd.run cursor
          = .ok (.flag (decide (buffer.length - cursor.offset = 0))) cursor)
      ∧ (∀ later : List (Use α), cursor.offset ≤ (cursor.afterAll later).offset)
      ∧ (∀ use : Use α, use.isRead = false → use.after cursor = cursor)
      ∧ (∀ use : Use α, use.isRead = true → ∀ answer next,
        use.run cursor = .ok answer next
          ↔ ∃ size, use.fieldSize? = some size ∧ size ≤ buffer.length - cursor.offset
            ∧ next = cursor.advance size
            ∧ use.reading (cursor.rest.take size) = .ok answer)
      ∧ (passedAll (ofBytes buffer) uses).flatten = buffer.take cursor.offset
      ∧ ∀ answers last, answerAll uses (ofBytes buffer) = .ok answers last
        → last = cursor ∧ Consumed uses (passedAll (ofBytes buffer) uses) answers := by
  intro cursor
  obtain ⟨count, inBuffer, moved, passed⟩ := exists_afterAll_eq (ofBytes buffer) uses
  have place : cursor.offset = count := by
    rw [show cursor = (ofBytes buffer).advance count from moved]
    exact Nat.zero_add count
  have rest : cursor.rest = buffer.drop cursor.offset := by
    rw [place, show cursor = (ofBytes buffer).advance count from moved]
    rfl
  have low : cursor.offset ≤ buffer.length := place ▸ inBuffer
  have remaining : cursor.remaining = buffer.length - cursor.offset := by
    rw [Cursor.remaining, rest, List.length_drop]
  have size : cursor.size = buffer.length := by
    rw [Cursor.size, remaining]
    omega
  have atEnd : cursor.atEnd = decide (buffer.length - cursor.offset = 0) := by
    rw [Bool.eq_iff_iff, atEnd_iff, remaining, decide_eq_true_iff]
  refine ⟨⟨low, rest⟩, ⟨?_, rfl, ?_, ?_⟩, ?_, fun use isLook => Use.after_of_look isLook cursor, ?_,
    ?_, fun answers last answered => consumed_of_answerAll answered⟩
  · exact congrArg (fun size => EStateM.Result.ok (Reply.number size) cursor) size
  · exact congrArg (fun size => EStateM.Result.ok (Reply.number size) cursor) remaining
  · exact congrArg (fun flag => EStateM.Result.ok (Reply.flag flag) cursor) atEnd
  · intro later
    obtain ⟨further, -, movedOn, -⟩ := exists_afterAll_eq cursor later
    rw [movedOn]
    exact Nat.le_add_right ..
  · intro use isRead answer next
    rw [← remaining]
    exact Use.run_eq_ok_iff isRead
  · rw [passed, place]
    rfl

end DiscVolume.Cursor
