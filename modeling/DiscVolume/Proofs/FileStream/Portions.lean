import DiscVolume.FileStream
import DiscVolume.Proofs.Medium.Exchanges

/-! Which parts of its runs a reading asks for. Each request is for a portion of a single run, later
requests are for portions of later runs, and among the bytes of all runs one portion starts where
the one before it ends. This does not depend on what the source answers, which only decides how many
of the requests are made.
-/

namespace DiscVolume

open Access Sequencing

/-- The number of bytes of all runs. -/
def ByteRun.total (runs : List ByteRun) : Int :=
  runs.foldr (fun run total => run.length + total) 0

/-- A part of one of several runs, and the exchange by which it is asked for. -/
structure Portion where
  /-- The number of runs in front of the one that the portion is a part of. -/
  index : Nat
  /-- The number of bytes of its run in front of the portion. -/
  within : Nat
  exchange : Exchange

namespace Portion

/-- A portion lies in a run, is not empty and is asked for at its own offset. -/
structure LiesIn (portion : Portion) (run : ByteRun) : Prop where
  notEmpty : 0 < portion.exchange.length
  offset_eq : portion.exchange.offset = run.offset + portion.within
  inside : portion.within + portion.exchange.length ≤ run.length

/-- Where a portion starts among the bytes of all runs. -/
def place (portion : Portion) (runs : List ByteRun) : Int :=
  ByteRun.total (runs.take portion.index) + portion.within

/-- The portion where there is one more run in front of its own. -/
def behind (portion : Portion) : Portion := { portion with index := portion.index + 1 }

theorem place_behind (portion : Portion) (run : ByteRun) (runs : List ByteRun)
    : portion.behind.place (run :: runs) = run.length + portion.place runs := by
  rw [place, place, behind, List.take_succ_cons, ByteRun.total, List.foldr_cons, Int.add_assoc]
  rfl

theorem index_pos_of_mem_behind {portions : List Portion}
    : ∀ portion ∈ portions.map behind, 0 < portion.index := by
  intro portion member
  obtain ⟨former, -, rfl⟩ := List.mem_map.mp member
  exact Nat.succ_pos _

/-- Portions that follow one another without a gap, from one place among the runs up to another. -/
def AreConnected (runs : List ByteRun) : Int → List Portion → Int → Prop
  | start, [], stop => start = stop
  | start, portion :: others, stop =>
      portion.place runs = start ∧ AreConnected runs (start + portion.exchange.length) others stop

/-- Portions of runs, in the order of the runs, that make up what is between two places. -/
structure Cover (runs : List ByteRun) (start : Int) (portions : List Portion) (stop : Int)
    : Prop where
  areParts : ∀ portion ∈ portions, ∃ run, runs[portion.index]? = some run ∧ portion.LiesIn run
  inOrder : portions.Pairwise fun portion later => portion.index < later.index
  areConnected : AreConnected runs start portions stop

variable {runs : List ByteRun} {run : ByteRun} {start stop : Int} {portions : List Portion}

theorem AreConnected.behind (connected : AreConnected runs start portions stop) (run : ByteRun)
    : AreConnected (run :: runs) (run.length + start) (portions.map Portion.behind)
        (run.length + stop) := by
  induction portions generalizing start with
  | nil => exact congrArg (run.length + ·) connected
  | cons portion others ih =>
      obtain ⟨rfl, rest⟩ := connected
      refine ⟨portion.place_behind run runs, ?_⟩
      rw [Int.add_assoc]
      exact ih rest

/-- The bytes of connected portions are those from the first place up to the last. -/
theorem AreConnected.stop_eq (connected : AreConnected runs start portions stop) {data : Bytes}
    (amounts : Amounts (portions.map Portion.exchange) (.ok data))
    : stop = start + data.length := by
  induction portions generalizing start data with
  | nil =>
      cases amounts
      exact connected.symm.trans (Int.add_zero start).symm
  | cons portion others ih =>
      obtain ⟨index, within, exchange⟩ := portion
      obtain ⟨-, rest⟩ := connected
      rw [List.map_cons] at amounts
      generalize made : others.map Portion.exchange = exchanges at amounts
      cases amounts with
      | whole behind =>
          subst made
          rw [ih rest behind, List.length_append, Int.natCast_add, Int.add_assoc]

namespace Cover

theorem nothing (runs : List ByteRun) (start : Int) : Cover runs start [] start :=
  ⟨by simp, .nil, rfl⟩

/-- Portions of later runs are portions of all runs. -/
theorem behind (cover : Cover runs start portions stop) (run : ByteRun)
    : Cover (run :: runs) (run.length + start) (portions.map Portion.behind)
        (run.length + stop) where
  areParts portion member := by
    obtain ⟨former, found, rfl⟩ := List.mem_map.mp member
    obtain ⟨own, listed, liesIn⟩ := cover.areParts former found
    exact ⟨own, listed, { liesIn with }⟩
  inOrder := List.pairwise_map.mpr (cover.inOrder.imp Nat.succ_lt_succ)
  areConnected := cover.areConnected.behind run

/-- A portion of the first run comes in front of portions of later ones. -/
theorem cons {within : Nat} {exchange : Exchange}
    (liesIn : (Portion.mk 0 within exchange).LiesIn run)
    (areLater : ∀ portion ∈ portions, 0 < portion.index)
    (cover : Cover (run :: runs) (within + exchange.length) portions stop)
    : Cover (run :: runs) within (⟨0, within, exchange⟩ :: portions) stop where
  areParts portion member := by
    cases member with
    | head => exact ⟨run, rfl, liesIn⟩
    | tail _ member => exact cover.areParts portion member
  inOrder := .cons areLater cover.inOrder
  areConnected := ⟨Int.zero_add _, cover.areConnected⟩

theorem single {within : Nat} {exchange : Exchange}
    (liesIn : (Portion.mk 0 within exchange).LiesIn run)
    : Cover (run :: runs) within [⟨0, within, exchange⟩] (within + exchange.length) :=
  cons liesIn (by simp) (.nothing ..)

end Cover

end Portion

namespace Contents

variable {source : Source σ}

/-- Nothing is read without a request. -/
theorem readRuns_zero (source : Source σ) (runs : List ByteRun) (start : Nat) (medium : σ)
    : readRuns source runs start 0 medium = .ok [] medium := by
  induction runs generalizing start with
  | nil => rfl
  | cons run others ih =>
      rw [readRuns, if_neg fun reached => absurd reached.1 (Nat.lt_irrefl 0)]
      exact ih _

/-- Runs that hold as many bytes as are asked for deliver them all, if any. By induction on the
runs: what the first of them does not deliver the others hold.
-/
theorem length_of_readRuns {runs : List ByteRun} {start count : Nat} {medium after : σ}
    {data : Bytes} (enough : count ≤ (ByteRun.total runs - start).toNat)
    (found : readRuns source runs start count medium = .ok data after)
    : data.length = count := by
  induction runs generalizing start count medium data with
  | nil =>
      cases found
      rw [ByteRun.total, List.foldr_nil] at enough
      rw [List.length_nil]
      omega
  | cons run others ih =>
      have split : ByteRun.total (run :: others) = run.length + ByteRun.total others := rfl
      rw [split] at enough
      rw [readRuns] at found
      split at found
      · next reached =>
          obtain ⟨front, middle, foundFront, found⟩ := bind_ok_iff.mp found
          obtain ⟨more, _, foundMore, returned⟩ := bind_ok_iff.mp found
          cases returned
          have exact := source.length_of_readExactly foundFront
          have behind := ih (by omega) foundMore
          rw [List.length_append, exact, behind]
          omega
      · next passed => exact ih (by omega) found

/-- Runs are read by requests for portions that cover what is between the start and the place where
the requests end. By induction on the runs: where the first of them delivers all that it holds, the
others are read from their first byte on.
-/
theorem readRuns_makes (source : Source σ) (runs : List ByteRun) (start count : Nat)
    (record : List Exchange) (medium : σ)
    : ∃ portions stop, Portion.Cover runs start portions stop
        ∧ Makes (portions.map Portion.exchange) (readRuns source runs start count)
            (readRuns source.watched runs start count) record medium := by
  induction runs generalizing start count record medium with
  | nil => exact ⟨[], start, .nothing .., .nothing rfl rfl⟩
  | cons run others ih =>
      by_cases reached : 0 < count ∧ start < run.length
      · obtain ⟨amount, chosen⟩ : ∃ amount, amount = min (run.length - start).toNat count :=
          ⟨_, rfl⟩
        have liesIn (answer : Except Failure Bytes)
            : (Portion.mk 0 start ⟨run.offset + start, amount, answer⟩).LiesIn run :=
          ⟨by dsimp only; omega, rfl, by dsimp only; omega⟩
        rw [readRuns, readRuns, if_pos reached, if_pos reached, ← chosen]
        obtain ⟨data, middle, rfl, found, again⟩ | ⟨answer, failure, after, amounts, failed, again⟩
          := source.readExactly_watched (run.offset + start) amount record medium
        · -- The rest of the request, if any, starts at the end of this run.
          by_cases last : count - data.length = 0
          · refine ⟨[⟨0, start, ⟨run.offset + start, data.length, .ok data⟩⟩], _,
              .single (liesIn _), .after found again (.nothing ?_ ?_)⟩
            · rw [last]
              exact readRuns_zero ..
            · rw [last]
              exact readRuns_zero ..
          · obtain ⟨portions, stop, cover, makes⟩ := ih 0 (count - data.length)
              (record ++ [⟨run.offset + start, data.length, .ok data⟩]) middle
            have meet : run.length + ((0 : Nat) : Int) = start + data.length := by omega
            have behind := cover.behind run
            rw [meet] at behind
            refine ⟨⟨0, start, ⟨run.offset + start, data.length, .ok data⟩⟩
              :: portions.map Portion.behind, _,
              .cons (liesIn _) Portion.index_pos_of_mem_behind behind, ?_⟩
            rw [List.map_cons, List.map_map]
            exact .after found again makes
        · exact ⟨[⟨0, start, ⟨run.offset + start, amount, answer⟩⟩], _, .single (liesIn answer),
            .stopped amounts failed again⟩
      · rw [readRuns, readRuns, if_neg reached, if_neg reached]
        by_cases wanted : 0 < count
        · obtain ⟨portions, stop, cover, makes⟩ := ih (start - run.length).toNat count record medium
          have meet : run.length + ((start - run.length).toNat : Int) = start := by omega
          have behind := cover.behind run
          rw [meet] at behind
          refine ⟨portions.map Portion.behind, _, behind, ?_⟩
          rw [List.map_map]
          exact makes
        · obtain rfl : count = 0 := by omega
          exact ⟨[], start, .nothing .., .nothing (readRuns_zero ..) (readRuns_zero ..)⟩

end Contents

end DiscVolume
