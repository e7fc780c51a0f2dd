import DiscVolume.Proofs.Medium.Answers
import DiscVolume.Proofs.Medium.Serving

/-! What a source is asked for, and what it answers. A watched source keeps a record of both beside
its medium, and answers as the source that is watched, whatever that is: with any bytes, of any
number, or with any failure.
-/

namespace DiscVolume

open Access Sequencing

/-- A request for a number of bytes at an offset, and the answer to it. -/
structure Exchange where
  offset : Int
  length : Nat
  answer : Except Failure Bytes

/-- A source that also records what is asked of it and what it answers. -/
def Source.watched (source : Source σ) : Source (List Exchange × σ) where
  readAt offset length := fun (record, medium) =>
    match source.readAt offset length medium with
    | .ok data after => .ok data (record ++ [⟨offset, length, .ok data⟩], after)
    | .error failure after => .error failure (record ++ [⟨offset, length, .error failure⟩], after)
  capacity := source.capacity
  note note := fun (record, medium) => (record, source.note note medium)

/-- What the answers to requests amount to, one after the other: the bytes of all of them, if each
has as many as were asked for. Otherwise the last answer is the only one that has not: it is of
another size, or the failure of the source itself.
-/
inductive Amounts : List Exchange → Except Failure Bytes → Prop where
  | nothing : Amounts [] (.ok [])
  | whole {offset : Int} {data more : Bytes} {others : List Exchange}
      (rest : Amounts others (.ok more))
      : Amounts (⟨offset, data.length, .ok data⟩ :: others) (.ok (data ++ more))
  | stopped {offset : Int} {data : Bytes} {failure : Failure} {others : List Exchange}
      (rest : Amounts others (.error failure))
      : Amounts (⟨offset, data.length, .ok data⟩ :: others) (.error failure)
  | missized {offset : Int} {length : Nat} {data : Bytes} (differs : data.length ≠ length)
      : Amounts [⟨offset, length, .ok data⟩]
          (.error (.truncated (.medium length offset data.length)))
  | refused {offset : Int} {length : Nat} {failure : Failure}
      : Amounts [⟨offset, length, .error failure⟩] (.error failure)

/-- What the first answer holds comes in front of the others. -/
theorem Amounts.after {offset : Int} {data : Bytes} {others : List Exchange}
    {outcome : Except Failure Bytes} (rest : Amounts others outcome)
    : Amounts (⟨offset, data.length, .ok data⟩ :: others) ((data ++ ·) <$> outcome) := by
  cases outcome with
  | ok more => exact .whole rest
  | error failure => exact .stopped rest

theorem Source.length_of_readExactly (source : Source σ) {offset : Int} {length : Nat}
    {data : Bytes} {medium after : σ}
    (found : source.readExactly offset length medium = .ok data after)
    : data.length = length := by
  obtain ⟨answer, middle, -, found⟩ := bind_ok_iff.mp found
  split at found
  · next whole =>
      cases found
      exact whole
  · cases found

/-- Bytes are read exactly by a single request: it is answered with as many, or it is what stops the
reading. The request is recorded, and nothing else about it changes.
-/
theorem Source.readExactly_watched (source : Source σ) (offset : Int) (length : Nat)
    (record : List Exchange) (medium : σ)
    : (∃ data after, data.length = length
        ∧ source.readExactly offset length medium = .ok data after
        ∧ source.watched.readExactly offset length (record, medium)
          = .ok data (record ++ [⟨offset, length, .ok data⟩], after))
      ∨ ∃ answer failure after, Amounts [⟨offset, length, answer⟩] (.error failure)
        ∧ source.readExactly offset length medium = .error failure after
        ∧ source.watched.readExactly offset length (record, medium)
          = .error failure (record ++ [⟨offset, length, answer⟩], after) := by
  cases found : source.readAt offset length medium with
  | ok data after =>
      have recorded : source.watched.readAt offset length (record, medium)
          = .ok data (record ++ [⟨offset, length, .ok data⟩], after) := by
        simp only [watched, found]
      by_cases whole : data.length = length
      · refine .inl ⟨data, after, whole, ?_, ?_⟩
        · rw [readExactly_of_readAt found, if_pos whole]
        · rw [readExactly_of_readAt recorded, if_pos whole]
      · refine .inr ⟨_, _, after, .missized whole, ?_, ?_⟩
        · rw [readExactly_of_readAt found, if_neg whole]
        · rw [readExactly_of_readAt recorded, if_neg whole]
  | error failure after =>
      have recorded : source.watched.readAt offset length (record, medium)
          = .error failure (record ++ [⟨offset, length, .error failure⟩], after) := by
        simp only [watched, found]
      exact .inr ⟨_, failure, after, .refused, bind_of_error found, bind_of_error recorded⟩

/-- On a medium a step makes some exchanges and finds what they amount to. The watched step has them
at the end of its record.
-/
structure Access.Makes (exchanges : List Exchange) (step : Access σ Bytes)
    (watched : Access (List Exchange × σ) Bytes) (record : List Exchange) (medium : σ) : Prop where
  finds : ∃ outcome after, Amounts exchanges outcome ∧ step medium = settle outcome after
    ∧ watched (record, medium) = settle outcome (record ++ exchanges, after)

namespace Access.Makes

variable {step others : Access σ Bytes} {watched rest : Access (List Exchange × σ) Bytes}
variable {record exchanges : List Exchange} {medium next : σ} {source : Source σ} {offset : Int}

theorem nothing (found : step medium = .ok [] medium)
    (again : watched (record, medium) = .ok [] (record, medium))
    : Makes [] step watched record medium where
  finds := ⟨.ok [], medium, .nothing, found, by rw [again, List.append_nil]; rfl⟩

/-- A request that is not answered as it should is the last one. -/
theorem stopped {length : Nat} {answer : Except Failure Bytes} {failure : Failure}
    (amounts : Amounts [⟨offset, length, answer⟩] (.error failure))
    (failed : source.readExactly offset length medium = .error failure next)
    (again : source.watched.readExactly offset length (record, medium)
      = .error failure (record ++ [⟨offset, length, answer⟩], next))
    : Makes [⟨offset, length, answer⟩]
        (source.readExactly offset length >>= fun data => others >>= fun more =>
          pure (data ++ more))
        (source.watched.readExactly offset length >>= fun data => rest >>= fun more =>
          pure (data ++ more))
        record medium where
  finds := ⟨.error failure, next, amounts, bind_of_error failed, bind_of_error again⟩

/-- Behind a request that is answered in full, others may be made. -/
theorem after {data : Bytes}
    (found : source.readExactly offset data.length medium = .ok data next)
    (again : source.watched.readExactly offset data.length (record, medium)
      = .ok data (record ++ [⟨offset, data.length, .ok data⟩], next))
    (makes : Makes exchanges others rest (record ++ [⟨offset, data.length, .ok data⟩]) next)
    : Makes (⟨offset, data.length, .ok data⟩ :: exchanges)
        (source.readExactly offset data.length >>= fun data => others >>= fun more =>
          pure (data ++ more))
        (source.watched.readExactly offset data.length >>= fun data => rest >>= fun more =>
          pure (data ++ more))
        record medium where
  finds := by
    obtain ⟨outcome, last, amounts, foundRest, againRest⟩ := makes.finds
    refine ⟨(data ++ ·) <$> outcome, last, amounts.after, ?_, ?_⟩
    · rw [bind_of_ok found]
      cases outcome with
      | ok more => exact bind_of_ok foundRest
      | error failure => exact bind_of_error foundRest
    · rw [bind_of_ok again]
      rw [List.append_assoc] at againRest
      cases outcome with
      | ok more => exact bind_of_ok againRest
      | error failure => exact bind_of_error againRest

end Access.Makes

end DiscVolume
