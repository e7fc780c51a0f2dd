import DiscVolume.Proofs.FileStream.Copying

/-! Lines of a stream. A line is read byte by byte up to its newline, and lines are read until
there are enough of them; but what comes of that are the lines of the bytes that are left, cut off
behind one of them. So no byte is lost between two lines, and none is read twice.
-/

namespace DiscVolume

open FileStream (newline)
open Sequencing

-----------------------------------------------------------------------------------------
-- The lines of a byte string
-----------------------------------------------------------------------------------------

namespace Bytes

/-- The lines of some bytes. A line ends behind a newline, or else with the last byte. -/
def lines : Bytes → List Bytes
  | [] => []
  | byte :: rest =>
      if byte = newline then [byte] :: lines rest
      else
        match lines rest with
        | [] => [[byte]]
        | line :: others => (byte :: line) :: others

/-- The first line of some bytes, which is empty only if they are. -/
def firstLine (data : Bytes) : Bytes := data.lines.headD []

theorem firstLine_cons (byte : UInt8) (rest : Bytes)
    : firstLine (byte :: rest)
      = if byte = newline then [byte] else byte :: firstLine rest := by
  rw [firstLine, lines]
  split
  · rfl
  · rw [firstLine]
    cases lines rest <;> rfl

/-- No byte is lost between the lines. -/
@[simp]
theorem flatten_lines (data : Bytes) : data.lines.flatten = data := by
  induction data with
  | nil => rfl
  | cons byte rest ih =>
      rw [lines]
      split
      · rw [List.flatten_cons, ih]
        rfl
      · cases found : lines rest with
        | nil =>
            rw [found] at ih
            rw [← ih]
            rfl
        | cons line others =>
            rw [found, List.flatten_cons] at ih
            rw [List.flatten_cons, List.cons_append, ih]

theorem lines_eq_nil {data : Bytes} : data.lines = [] ↔ data = [] := by
  constructor
  · intro empty
    rw [← flatten_lines data, empty]
    rfl
  · rintro rfl
    rfl

/-- The first line starts the bytes, and the other lines are those of the bytes behind it. -/
theorem lines_eq_cons {data line : Bytes} {others : List Bytes}
    (found : data.lines = line :: others)
    : data.firstLine = line ∧ lines (data.drop line.length) = others := by
  refine ⟨by rw [firstLine, found, List.headD_cons], ?_⟩
  induction data generalizing line others with
  | nil => cases found
  | cons byte rest ih =>
      rw [lines] at found
      split at found
      · cases found
        rfl
      · split at found
        · next empty =>
            cases found
            rw [lines_eq_nil.mp empty]
            rfl
        · next line others known =>
            cases found
            exact ih known

theorem length_firstLine_le (data : Bytes) : data.firstLine.length ≤ data.length := by
  have whole := congrArg List.length data.flatten_lines
  rw [firstLine]
  cases found : data.lines with
  | nil => exact Nat.zero_le _
  | cons line others =>
      rw [found, List.flatten_cons, List.length_append] at whole
      rw [List.headD_cons]
      omega

/-- No line is empty, and a newline can only be the last byte of a line. -/
theorem lines_whole {data line : Bytes} (member : line ∈ data.lines)
    : line ≠ [] ∧ newline ∉ line.dropLast := by
  induction data generalizing line with
  | nil => cases member
  | cons byte rest ih =>
      rw [lines] at member
      split at member
      · rcases List.mem_cons.mp member with rfl | behind
        · exact ⟨List.cons_ne_nil _ _, List.not_mem_nil⟩
        · exact ih behind
      · next other =>
          split at member
          · obtain rfl := List.mem_singleton.mp member
            exact ⟨List.cons_ne_nil _ _, List.not_mem_nil⟩
          · next first others found =>
              rw [found] at ih
              rcases List.mem_cons.mp member with rfl | behind
              · obtain ⟨notEmpty, inside⟩ := ih (List.mem_cons_self)
                refine ⟨List.cons_ne_nil _ _, ?_⟩
                rw [List.dropLast_cons_of_ne_nil notEmpty, List.mem_cons, not_or]
                exact ⟨fun same => other same.symm, inside⟩
              · exact ih (List.mem_cons_of_mem _ behind)

/-- Only the last line may lack a newline. -/
theorem lines_ended {data line : Bytes} {before after : List Bytes}
    (found : data.lines = before ++ line :: after) (unfinished : line.getLast? ≠ some newline)
    : after = [] := by
  induction data generalizing before line after with
  | nil => simp [lines] at found
  | cons byte rest ih =>
      rw [lines] at found
      split at found
      · next same =>
          rcases before with _ | ⟨first, before⟩
          · obtain ⟨rfl, -⟩ := List.cons_eq_cons.mp found
            simp [same] at unfinished
          · exact ih (List.cons_eq_cons.mp found).2 unfinished
      · split at found
        · rcases before with _ | ⟨first, before⟩
          · exact (List.cons_eq_cons.mp found).2.symm
          · simp at found
        · next first others known =>
            rcases before with _ | ⟨other, before⟩
            · -- The first line has got a byte in front, so it ends as it did without it.
              obtain ⟨rfl, rfl⟩ := List.cons_eq_cons.mp found
              have notEmpty : first ≠ [] := (lines_whole (known ▸ List.mem_cons_self)).1
              rw [List.getLast?_cons_of_ne_nil notEmpty] at unfinished
              have front : lines rest = [] ++ first :: others := known
              exact ih front unfinished
            · obtain ⟨-, behind⟩ := List.cons_eq_cons.mp found
              have front : lines rest = (first :: before) ++ line :: after := by
                rw [known, behind]
                rfl
              exact ih front unfinished

/-- Lines up to the one that exceeds the room for them, or all if there is no bound. -/
def linesUpTo : Option Nat → List Bytes → List Bytes
  | _, [] => []
  | none, line :: others => line :: linesUpTo none others
  | some room, line :: others =>
      if room < line.length then [line] else line :: linesUpTo (some (room - line.length)) others

theorem linesUpTo_nil (room : Option Nat) : linesUpTo room [] = [] := by
  cases room <;> rfl

@[simp]
theorem linesUpTo_none (lines : List Bytes) : linesUpTo none lines = lines := by
  induction lines with
  | nil => rfl
  | cons line others ih => rw [linesUpTo, ih]

/-- The lines that there is room for come first among all. -/
theorem linesUpTo_prefix (room : Option Nat) (lines : List Bytes)
    : linesUpTo room lines <+: lines := by
  induction lines generalizing room with
  | nil => simp [linesUpTo]
  | cons line others ih =>
      cases room with
      | none => exact linesUpTo_none _ ▸ List.prefix_rfl
      | some room =>
          rw [linesUpTo]
          split
          · exact ⟨others, rfl⟩
          · exact List.cons_prefix_cons.mpr ⟨rfl, ih _⟩

/-- As long as the room is not exceeded there are more lines to come, if there are any. -/
theorem linesUpTo_of_le {room : Nat} {lines : List Bytes}
    (fits : (linesUpTo (some room) lines).flatten.length ≤ room)
    : linesUpTo (some room) lines = lines := by
  induction lines generalizing room with
  | nil => rfl
  | cons line others ih =>
      rw [linesUpTo] at fits ⊢
      split
      · next exceeded =>
          rw [if_pos exceeded] at fits
          simp at fits
          omega
      · next inside =>
          rw [if_neg inside, List.flatten_cons, List.length_append] at fits
          rw [ih (by omega)]

/-- The room is not exceeded before the last of the lines. -/
theorem linesUpTo_dropLast (room : Nat) (lines : List Bytes)
    : (linesUpTo (some room) lines).dropLast.flatten.length ≤ room := by
  induction lines generalizing room with
  | nil => simp [linesUpTo]
  | cons line others ih =>
      rw [linesUpTo]
      split
      · simp
      · next inside =>
          have behind := ih (room - line.length)
          cases found : linesUpTo (some (room - line.length)) others with
          | nil => simp
          | cons second rest =>
              rw [found] at behind
              rw [List.dropLast_cons_of_ne_nil (List.cons_ne_nil _ _), List.flatten_cons,
                List.length_append]
              omega

end Bytes

-----------------------------------------------------------------------------------------
-- Lines of a tape and of the streams that play it
-----------------------------------------------------------------------------------------

namespace Tape

variable {tape : Tape}

/-- The line that a tape is at, cut at a limit unless none or a negative one is given. -/
def line (tape : Tape) : Option Int → Bytes
  | none => tape.rest.firstLine
  | some limit =>
      if limit < 0 then tape.rest.firstLine else tape.rest.firstLine.take limit.toNat

theorem line_of_limit (tape : Tape) (limit : Nat)
    : tape.line (some (limit : Int)) = (tape.line none).take limit := by
  have noNegative : ¬ (limit : Int) < 0 := Int.not_lt.mpr (Int.natCast_nonneg limit)
  simp only [line, noNegative, if_false, Int.toNat_natCast]

/-- The lines that are left on a tape, or those that a positive hint has room for. -/
def linesFor (tape : Tape) (hint : Int) : List Bytes :=
  Bytes.linesUpTo (if hint ≤ 0 then none else some hint.toNat) tape.rest.lines

theorem after_after (first second : Bytes)
    : (tape.after first).after second = tape.after (first ++ second) := by
  simp only [after, List.length_append, Nat.add_assoc]

/-- Behind the rest a tape is at its end, unless it was past it. -/
theorem position_after_rest (tape : Tape)
    : (tape.after tape.rest).position = max tape.position tape.contents.length := by
  change tape.position + tape.rest.length = _
  rw [rest, List.length_drop]
  omega

end Tape

namespace FileStream

variable {state middle next : FileStream σ × σ} {tape : Tape} {ready : σ → Prop}

/-- A line is over where a read delivers nothing or a newline. -/
theorem lineWithin_of_end {budget : Nat} {data : Bytes}
    (came : read (some 1) state = .ok data middle) (ends : data = [] ∨ data = [newline])
    : lineWithin (budget + 1) state = .ok data middle := by
  rw [lineWithin, bind_of_ok came]
  rcases ends with rfl | rfl <;> rfl

/-- A line goes on behind any other byte. -/
theorem lineWithin_of_other {budget : Nat} {byte : UInt8} {more : Bytes}
    (came : read (some 1) state = .ok [byte] middle) (other : byte ≠ newline)
    (goesOn : lineWithin budget middle = .ok more next)
    : lineWithin (budget + 1) state = .ok (byte :: more) next := by
  rw [lineWithin, bind_of_ok came, if_neg (by simpa using other), bind_of_ok goesOn]
  rfl

namespace Plays

/-- Byte by byte a stream delivers the line that its tape is at, or as much of it as there is a
budget for. The induction is on the budget, with one read for each byte.
-/
theorem lineWithin (plays : Plays state tape ready) (isOpen : tape.isOpen = true) (budget : Nat)
    : ∃ next, Plays next (tape.after (tape.rest.firstLine.take budget)) ready
        ∧ FileStream.lineWithin budget state = .ok (tape.rest.firstLine.take budget) next := by
  induction budget generalizing state tape with
  | zero => exact ⟨state, plays, rfl⟩
  | succ budget ih =>
      obtain ⟨middle, playsMiddle, came⟩ := plays.read isOpen (some 1)
      have delivered : tape.delivery (some 1) = tape.rest.take 1 := rfl
      rw [delivered] at playsMiddle came
      cases left : tape.rest with
      | nil =>
          rw [left] at playsMiddle came
          exact ⟨middle, playsMiddle, lineWithin_of_end came (.inl rfl)⟩
      | cons byte rest =>
          rw [left] at playsMiddle came
          rw [Bytes.firstLine_cons]
          split
          · next ends =>
              subst ends
              rw [List.take_of_length_le (by simp)]
              exact ⟨middle, playsMiddle, lineWithin_of_end came (.inr rfl)⟩
          · next other =>
              obtain ⟨next, playsNext, goesOn⟩ := ih playsMiddle isOpen
              have behind : (tape.after [byte]).rest = rest := by
                rw [Tape.rest_after, left]
                rfl
              rw [List.take_succ_cons, List.take_zero, behind] at playsNext goesOn
              rw [Tape.after_after] at playsNext
              exact ⟨next, playsNext, lineWithin_of_other came other goesOn⟩

/-- A stream delivers the line that its tape is at. -/
theorem readLine (plays : Plays state tape ready) (isOpen : tape.isOpen = true)
    (limit : Option Int) (fits : isIndex (limit.getD (-1)) = true)
    : ∃ next, Plays next (tape.after (tape.line limit)) ready
        ∧ FileStream.readLine limit state = .ok (tape.line limit) next := by
  have start := opened_of_open (plays.isOpen_eq.trans isOpen)
  by_cases nothing : limit.getD (-1) = 0
  · -- Nothing is asked of the stream.
    obtain ⟨_, rfl, rfl⟩ : ∃ size, limit = some size ∧ size = 0 := by
      cases limit with
      | none => cases nothing
      | some size => exact ⟨size, rfl, nothing⟩
    exact ⟨state, plays, rfl⟩
  · have budget_eq : tape.line limit = tape.rest.firstLine.take
        (if limit.getD (-1) < 0 then tape.rest.length
          else min tape.rest.length (limit.getD (-1)).toNat) := by
      have shorter := tape.rest.length_firstLine_le
      cases limit with
      | none => exact (List.take_of_length_le shorter).symm
      | some limit =>
          rw [Tape.line, Option.getD_some]
          split
          · rw [List.take_of_length_le shorter]
          · rw [List.take_eq_take_iff]
            omega
    rw [budget_eq]
    obtain ⟨next, playsNext, delivered⟩ := plays.lineWithin isOpen _
    refine ⟨next, playsNext, ?_⟩
    rw [FileStream.readLine, if_neg (by simp [fits]), if_neg nothing, bind_of_ok start,
      plays.remaining_eq]
    exact delivered

/-- Line by line a stream delivers the lines that are left on its tape, as far as there is room for
them. The induction is on the budget, which allows for a line for each byte.
-/
theorem linesWithin (plays : Plays state tape ready) (isOpen : tape.isOpen = true) {budget : Nat}
    (enough : tape.rest.length ≤ budget) (room : Option Nat)
    : ∃ next, Plays next (tape.after (Bytes.linesUpTo room tape.rest.lines).flatten) ready
        ∧ FileStream.linesWithin budget room state
          = .ok (Bytes.linesUpTo room tape.rest.lines) next := by
  induction budget generalizing state tape room with
  | zero =>
      have nothing : tape.rest = [] := List.eq_nil_of_length_eq_zero (by omega)
      rw [nothing]
      cases room <;> exact ⟨state, plays, rfl⟩
  | succ budget ih =>
      obtain ⟨middle, playsMiddle, came⟩ := plays.readLine isOpen none rfl
      have line_eq : tape.line none = tape.rest.firstLine := rfl
      rw [line_eq] at playsMiddle came
      cases left : tape.rest.lines with
      | nil =>
          rw [Bytes.lines_eq_nil.mp left] at playsMiddle came
          rw [Bytes.linesUpTo_nil, FileStream.linesWithin, bind_of_ok came]
          exact ⟨middle, playsMiddle, rfl⟩
      | cons line others =>
          obtain ⟨isFirst, behind⟩ := Bytes.lines_eq_cons left
          obtain ⟨notEmpty, -⟩ := Bytes.lines_whole (left ▸ List.mem_cons_self)
          rw [isFirst] at playsMiddle came
          have shorter : (tape.after line).rest.length ≤ budget := by
            have positive := List.length_pos_iff.mpr notEmpty
            rw [Tape.rest_after, List.length_drop]
            omega
          rw [← Tape.rest_after] at behind
          rw [FileStream.linesWithin, bind_of_ok came, if_neg (by simpa using notEmpty)]
          have goesOn (room : Option Nat) := ih playsMiddle isOpen shorter room
          simp only [behind, Tape.after_after] at goesOn
          cases room with
          | none =>
              obtain ⟨next, playsNext, delivered⟩ := goesOn none
              refine ⟨next, playsNext, ?_⟩
              dsimp only
              rw [bind_of_ok delivered]
              rfl
          | some room =>
              dsimp only
              rw [Bytes.linesUpTo]
              split
              · exact ⟨middle, by simpa using playsMiddle, rfl⟩
              · obtain ⟨next, playsNext, delivered⟩ := goesOn (some (room - line.length))
                refine ⟨next, playsNext, ?_⟩
                rw [bind_of_ok delivered]
                rfl

/-- A stream delivers the lines that are left on its tape, or those that a positive hint has room
for. Only a hint that is a size comes that far.
-/
theorem readLines (plays : Plays state tape ready) (isOpen : tape.isOpen = true) (hint : Int)
    : ∃ next, Plays next (tape.after (tape.linesFor hint).flatten) ready
        ∧ FileStream.linesWithin state.1.remaining (if hint ≤ 0 then none else some hint.toNat)
            state
          = .ok (tape.linesFor hint) next
        ∧ (isIndex hint = true
          → FileStream.readLines (some hint) state = .ok (tape.linesFor hint) next) := by
  have enough : tape.rest.length ≤ state.1.remaining := Nat.le_of_eq plays.remaining_eq.symm
  obtain ⟨next, playsNext, delivered⟩ := plays.linesWithin isOpen enough
    (if hint ≤ 0 then none else some hint.toNat)
  refine ⟨next, playsNext, delivered, fun fits => ?_⟩
  have looked : current state = .ok state.1 state := rfl
  rw [FileStream.readLines, bind_of_ok looked, Option.getD_some, if_neg (by simp [fits]),
    if_neg (by simp [plays.isOpen_eq, isOpen])]
  exact delivered

end Plays

-----------------------------------------------------------------------------------------
-- Nothing is lost
-----------------------------------------------------------------------------------------

/-- Lines that cover the bytes of some contents from one place up to another. Only the last line of
the contents may lack a newline.
-/
structure AreLines (contents : Bytes) (start stop : Nat) (lines : List Bytes) : Prop where
  start_le : start ≤ stop
  flatten_eq : lines.flatten = contents.slice start (stop - start)
  whole : ∀ line ∈ lines, line ≠ [] ∧ newline ∉ line.dropLast
  ended : ∀ before line after, lines = before ++ line :: after → line.getLast? ≠ some newline
    → after = [] ∧ stop = contents.length

/-- Lines that are read one at a time, until one is empty. -/
inductive LineByLine : FileStream σ × σ → List Bytes → FileStream σ × σ → Prop
  | over {state last : FileStream σ × σ}
      (answered : perform (.readLine none) state = .ok (.bytes []) last)
      : LineByLine state [] last
  | line {state middle last : FileStream σ × σ} {line : Bytes} {others : List Bytes}
      (answered : perform (.readLine none) state = .ok (.bytes line) middle)
      (notEmpty : line ≠ []) (behind : LineByLine middle others last)
      : LineByLine state (line :: others) last

/-- What a stream at some position makes of its contents when it is asked for lines. -/
structure KeepsLines (state : FileStream σ × σ) (contents : Bytes) (position : Nat) : Prop where
  /-- Lines are read as far as they cover the contents, and the stream is where they end. -/
  gathers : ∀ hint : Int, ∃ lines next stop,
    linesWithin state.1.remaining (if hint ≤ 0 then none else some hint.toNat) state
        = .ok lines next
      ∧ (isIndex hint = true → perform (.readLines (some hint)) state = .ok (.lines lines) next)
      ∧ next.1.position = (stop : Nat)
      ∧ AreLines contents position stop lines
      ∧ (0 < hint → (lines.dropLast.flatten.length : Int) ≤ hint
        ∧ ((lines.flatten.length : Int) ≤ hint → contents.length ≤ stop))
      ∧ (hint ≤ 0 → stop = max position contents.length
        ∧ ∃ last, LineByLine state lines last ∧ last.1.position = (stop : Nat))
  unhinted : perform (.readLines none) state = perform (.readLines (some 0)) state
  /-- A limit cuts off the line that is read without it. -/
  cuts : ∃ line next, perform (.readLine none) state = .ok (.bytes line) next
    ∧ next.1.position = ((position + line.length : Nat) : Int)
    ∧ ∀ limit : Nat,
        (∃ last, lineWithin limit state = .ok (line.take limit) last
          ∧ last.1.position = ((position + (line.take limit).length : Nat) : Int))
        ∧ (isIndex limit = true
          → ∃ last, perform (.readLine (some limit)) state = .ok (.bytes (line.take limit)) last
              ∧ last.1.position = ((position + (line.take limit).length : Nat) : Int))
  /-- Numbers too large for a size are refused before anything is read. -/
  refuses : ∀ number, isIndex number = false
    → perform (.readLines (some number)) state = .error (.medium .countTooLarge) state
      ∧ perform (.readLine (some number)) state = .error (.medium .countTooLarge) state

/-- The lines for a hint cover the front of what is left on a tape. -/
theorem areLines_linesFor (tape : Tape) (hint : Int)
    : AreLines tape.contents tape.position (tape.after (tape.linesFor hint).flatten).position
        (tape.linesFor hint) := by
  obtain ⟨others, split⟩ := Bytes.linesUpTo_prefix
    (if hint ≤ 0 then none else some hint.toNat) tape.rest.lines
  change tape.linesFor hint ++ others = tape.rest.lines at split
  have whole := tape.rest.flatten_lines
  rw [← split, List.flatten_append] at whole
  refine ⟨Nat.le_add_right _ _, ?_, fun line member => ?_, ?_⟩
  · rw [Bytes.slice, Tape.after, Nat.add_sub_cancel_left]
    change _ = tape.rest.take _
    rw [← whole, List.take_left]
  · exact Bytes.lines_whole (split ▸ List.mem_append_left _ member)
  · intro before line after found unfinished
    rw [found, List.append_assoc, List.cons_append] at split
    have last := Bytes.lines_ended split.symm unfinished
    obtain ⟨rfl, rfl⟩ := List.append_eq_nil_iff.mp last
    refine ⟨rfl, ?_⟩
    -- All lines came, the unfinished one among them, so there were bytes left and all are covered.
    rw [List.flatten_nil, List.append_nil] at whole
    have notEmpty : tape.rest ≠ [] := by
      intro nothing
      rw [nothing] at split
      exact List.append_ne_nil_of_right_ne_nil before (List.cons_ne_nil line []) split
    have positive := List.length_pos_iff.mpr notEmpty
    rw [Tape.rest, List.length_drop] at positive
    rw [whole, tape.position_after_rest]
    omega

/-- Where a stream plays an open tape, its lines are those of the tape, one at a time. The induction
is on the lines that are left.
-/
theorem Plays.lineByLine (plays : Plays state tape ready) (isOpen : tape.isOpen = true)
    : ∃ last, Plays last (tape.after tape.rest) ready ∧ LineByLine state tape.rest.lines last := by
  generalize found : tape.rest.lines = lines
  induction lines generalizing state tape with
  | nil =>
      obtain ⟨last, playsLast, delivered⟩ := plays.readLine isOpen none rfl
      have nothing : tape.rest = [] := Bytes.lines_eq_nil.mp found
      have line_eq : tape.line none = [] := by rw [Tape.line, nothing]; rfl
      rw [line_eq] at playsLast delivered
      rw [nothing]
      refine ⟨last, playsLast, .over ?_⟩
      exact bind_of_ok delivered
  | cons line others ih =>
      obtain ⟨middle, playsMiddle, delivered⟩ := plays.readLine isOpen none rfl
      obtain ⟨isFirst, behind⟩ := Bytes.lines_eq_cons found
      have line_eq : tape.line none = line := isFirst
      rw [line_eq] at playsMiddle delivered
      rw [← Tape.rest_after] at behind
      obtain ⟨last, playsLast, goesOn⟩ := ih playsMiddle isOpen behind
      have whole : line ++ (tape.after line).rest = tape.rest := by
        rw [← Bytes.flatten_lines tape.rest, found, ← behind, List.flatten_cons,
          Bytes.flatten_lines]
      rw [Tape.after_after, whole] at playsLast
      refine ⟨last, playsLast, .line (bind_of_ok delivered) ?_ goesOn⟩
      exact (Bytes.lines_whole (found ▸ List.mem_cons_self)).1

/-- A stream that plays an open tape keeps its lines. -/
theorem Plays.keepsLines (plays : Plays state tape ready) (isOpen : tape.isOpen = true)
    : KeepsLines state tape.contents tape.position where
  gathers hint := by
    obtain ⟨next, playsNext, looped, delivered⟩ := plays.readLines isOpen hint
    refine ⟨_, next, _, looped, fun fits => bind_of_ok (delivered fits), playsNext.position_eq,
      areLines_linesFor tape hint, fun bounded => ?_, fun unbounded => ?_⟩
    · obtain ⟨room, rfl⟩ := Int.eq_ofNat_of_zero_le (Int.le_of_lt bounded)
      have lines_eq : tape.linesFor room = Bytes.linesUpTo (some room) tape.rest.lines := by
        rw [Tape.linesFor, if_neg (Int.not_le.mpr bounded), Int.toNat_natCast]
      rw [lines_eq]
      refine ⟨Int.ofNat_le.mpr (Bytes.linesUpTo_dropLast _ _), fun fits => ?_⟩
      rw [Bytes.linesUpTo_of_le (Int.ofNat_le.mp fits), Bytes.flatten_lines,
        tape.position_after_rest]
      omega
    · have lines_eq : tape.linesFor hint = tape.rest.lines := by
        rw [Tape.linesFor, if_pos unbounded, Bytes.linesUpTo_none]
      rw [lines_eq, Bytes.flatten_lines]
      obtain ⟨last, playsLast, oneByOne⟩ := plays.lineByLine isOpen
      exact ⟨tape.position_after_rest, last, oneByOne, playsLast.position_eq⟩
  unhinted := rfl
  cuts := by
    obtain ⟨next, playsNext, delivered⟩ := plays.readLine isOpen none rfl
    refine ⟨_, next, bind_of_ok delivered, playsNext.position_eq, fun limit => ⟨?_, ?_⟩⟩
    · obtain ⟨last, playsLast, cut⟩ := plays.lineWithin isOpen limit
      exact ⟨last, cut, playsLast.position_eq⟩
    · intro fits
      obtain ⟨last, playsLast, cut⟩ := plays.readLine isOpen (some limit) fits
      rw [tape.line_of_limit] at playsLast cut
      exact ⟨last, bind_of_ok cut, playsLast.position_eq⟩
  refuses number unfit := by
    have looked : current state = .ok state.1 state := rfl
    constructor
    · refine bind_of_error ?_
      rw [FileStream.readLines, bind_of_ok looked, Option.getD_some, if_pos (by simp [unfit])]
      rfl
    · refine bind_of_error ?_
      rw [FileStream.readLine, Option.getD_some, if_pos (by simp [unfit])]
      rfl

/-- A stream over runs of an image and a stream over their bytes as embedded data keep the lines of
those bytes, from wherever they are read.
-/
theorem keepsLines_concatenation {source : Source σ} {image : Bytes} {runs : List ByteRun}
    (serves : source.Serves image ready) (within : ∀ run ∈ runs, run.IsWithin image)
    (medium : σ) (isReady : ready medium) (other : τ) (position : Nat)
    : KeepsLines ({ contents := .recorded source runs, position }, medium)
        (Contents.concatenation image runs) position
      ∧ KeepsLines ({ contents := .embedded (Contents.concatenation image runs), position }, other)
        (Contents.concatenation image runs) position := by
  let tape : Tape := { contents := Contents.concatenation image runs, position }
  have recorded : Plays ({ contents := .recorded source runs, position }, medium) tape ready := {
    isReady := isReady
    holds := Contents.holds_recorded serves within
    position_eq := rfl
    isOpen_eq := rfl
  }
  have embedded : Plays
      ({ contents := .embedded (Contents.concatenation image runs), position }, other) tape
      (fun _ => True) := {
    isReady := trivial
    holds := Contents.holds_embedded _ _
    position_eq := rfl
    isOpen_eq := rfl
  }
  exact ⟨recorded.keepsLines rfl, embedded.keepsLines rfl⟩

/-- Three runs with a line that goes on from one to the next, a newline that starts a run and a
last line without one.
-/
def tornRuns : List ByteRun := [⟨5, 3⟩, ⟨0, 0⟩, ⟨3, 2⟩, ⟨0, 3⟩]

/-- The runs spell two lines with a newline and then a single byte. -/
def tornContents : ByteArray := ⟨#[100, 10, 101, 10, 99, 97, 98, 13]⟩

theorem keepsLines_concatenation_torn
    : (∀ run ∈ tornRuns, run.IsWithin tornContents.data.toList)
      ∧ Contents.concatenation tornContents.data.toList tornRuns
        = [97, 98, 13, 10, 99, 100, 10, 101]
      ∧ KeepsLines (({
            contents := .recorded (Source.ofContents tornContents) tornRuns
            position := 1
          } : FileStream Unit), ()) [97, 98, 13, 10, 99, 100, 10, 101] 1
      ∧ KeepsLines (({
            contents := .embedded [97, 98, 13, 10, 99, 100, 10, 101]
            position := 1
          } : FileStream Unit), ()) [97, 98, 13, 10, 99, 100, 10, 101] 1 := by
  have within : ∀ run ∈ tornRuns, run.IsWithin tornContents.data.toList := by
    intro run member
    simp only [tornRuns, List.mem_cons, List.not_mem_nil, or_false] at member
    rcases member with rfl | rfl | rfl | rfl
    · exact ⟨by decide, by decide, by decide⟩
    · exact ⟨by decide, by decide, by decide⟩
    · exact ⟨by decide, by decide, by decide⟩
    · exact ⟨by decide, by decide, by decide⟩
  exact ⟨within, rfl,
    keepsLines_concatenation (Source.Serves.ofContents tornContents) within () trivial () 1⟩

end FileStream

end DiscVolume
