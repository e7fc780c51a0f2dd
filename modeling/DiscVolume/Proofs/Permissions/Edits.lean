import DiscVolume.Proofs.Permissions.Modes

/-! Chains of changes to a bitmap. Each bit of a class is as the last change leaves it that names
it, and as it was before if there is none. So only the order of the changes to one class matters.
-/

namespace DiscVolume.Permissions

open Bits

-----------------------------------------------------------------------------------------
-- One change
-----------------------------------------------------------------------------------------

namespace Edit

/-- The class that is changed. -/
def who : Edit → Class
  | .grant who _ => who
  | .revoke who _ => who

/-- The permissions that are given or taken. -/
def named : Edit → Int
  | .grant _ given => given
  | .revoke _ taken => taken

/-- Whether what is named is given. -/
def gives : Edit → Bool
  | .grant .. => true
  | .revoke .. => false

/-- Whether a change names a bit of a class. -/
def touches (edit : Edit) (who : Class) (index : Nat) : Bool :=
  decide (edit.who = who) && bit edit.named index

/-- A change that names nothing but the five permissions of its class. -/
def IsPlain (edit : Edit) : Prop := 0 ≤ edit.named ∧ edit.named < 32

instance (edit : Edit) : Decidable edit.IsPlain :=
  inferInstanceAs (Decidable (0 ≤ edit.named ∧ edit.named < 32))

end Edit

variable {permissions start : Permissions} {edits : List Edit} {edit : Edit}
  {who another : Class} {place index : Nat}

/-- One change sets the bits that it names where its class is, and no others. -/
theorem bit_apply_eq
    : bit (permissions.apply edit).bits place
      = if bit (up edit.named edit.who.place) place then edit.gives
        else bit permissions.bits place := by
  cases edit with
  | grant who given =>
      change bit (Bits.or _ (up given who.place)) place
        = if bit (up given who.place) place then true else _
      rw [bit_or]
      cases bit (up given who.place) place <;> simp
  | revoke who taken =>
      change bit (Bits.and _ (Bits.not (up taken who.place))) place
        = if bit (up taken who.place) place then false else _
      rw [bit_and, bit_not]
      cases bit (up taken who.place) place <;> simp

/-- Bits that are moved to their class are in no other one. -/
theorem bit_up_place {value : Int} (nonneg : 0 ≤ value) (small : value < 32) (inGroup : index < 5)
    : bit (up value who.place) (5 * another.rank + index)
      = (decide (who = another) && bit value index) := by
  have outside {place : Nat} (above : 5 ≤ place) : bit value place = false :=
    bit_eq_false value 5 place nonneg small above
  rw [bit_up, who.place_eq]
  cases who <;> cases another <;> simp only [Class.rank] <;> grind

theorem bit_up_above {value : Int} (nonneg : 0 ≤ value) (small : value < 32) (above : 15 ≤ place)
    : bit (up value who.place) place = false := by
  have outside : bit value (place - who.place) = false := by
    refine bit_eq_false value 5 _ nonneg small ?_
    cases who <;> simp only [Class.place] <;> omega
  rw [bit_up, outside, Bool.and_false]

/-- A bit of a class is set by a change that names it. -/
theorem bit_apply (plain : edit.IsPlain) (inGroup : index < 5)
    : bit (permissions.apply edit).bits (5 * who.rank + index)
      = if edit.touches who index then edit.gives
        else bit permissions.bits (5 * who.rank + index) := by
  rw [bit_apply_eq, bit_up_place plain.1 plain.2 inGroup, Edit.touches]

theorem bit_apply_above (plain : edit.IsPlain) (above : 15 ≤ place)
    : bit (permissions.apply edit).bits place = bit permissions.bits place := by
  rw [bit_apply_eq, bit_up_above plain.1 plain.2 above]
  rfl

-----------------------------------------------------------------------------------------
-- Chains of changes
-----------------------------------------------------------------------------------------

/-- The last of some changes that names a bit of a class. -/
def lastTouch (edits : List Edit) (who : Class) (index : Nat) : Option Edit :=
  (edits.filter (·.touches who index)).getLast?

/-- Each bit of a class is as the last change leaves it that names it. -/
theorem bit_applyAll (plain : ∀ edit ∈ edits, edit.IsPlain) (inGroup : index < 5)
    : bit (start.applyAll edits).bits (5 * who.rank + index)
      = (lastTouch edits who index).elim (bit start.bits (5 * who.rank + index)) Edit.gives := by
  induction edits generalizing start with
  | nil => rfl
  | cons edit others ih =>
      rw [List.forall_mem_cons] at plain
      change bit ((start.apply edit).applyAll others).bits _ = _
      rw [ih plain.2, bit_apply plain.1 inGroup, lastTouch, lastTouch, List.filter_cons]
      split
      · rw [List.getLast?_cons]
        cases (others.filter (·.touches who index)).getLast? <;> rfl
      · rfl

/-- What is above the classes stays. -/
theorem bit_applyAll_above (plain : ∀ edit ∈ edits, edit.IsPlain) (above : 15 ≤ place)
    : bit (start.applyAll edits).bits place = bit start.bits place := by
  induction edits generalizing start with
  | nil => rfl
  | cons edit others ih =>
      rw [List.forall_mem_cons] at plain
      exact (ih plain.2).trans (bit_apply_above plain.1 above)

/-- Changes of which those to each class are the same, in the same order, lead to the same. -/
theorem applyAll_congr {others : List Edit} (plain : ∀ edit ∈ edits, edit.IsPlain)
    (plainOthers : ∀ edit ∈ others, edit.IsPlain)
    (same : ∀ who : Class, others.filter (·.who = who) = edits.filter (·.who = who))
    : start.applyAll others = start.applyAll edits := by
  have touching (list : List Edit) (who : Class) (index : Nat)
      : lastTouch list who index = lastTouch (list.filter (·.who = who)) who index := by
    rw [lastTouch, lastTouch, List.filter_filter]
    congr 2
    funext edit
    by_cases isOwn : edit.who = who <;> simp [Edit.touches, isOwn]
  have bits : (start.applyAll others).bits = (start.applyAll edits).bits := by
    refine eq_of_groups 5 (by decide) (fun who index inGroup => ?_) fun place above => ?_
    · rw [bit_applyAll plainOthers inGroup, bit_applyAll plain inGroup, touching others, same,
        ← touching edits]
    · rw [bit_applyAll_above plainOthers above, bit_applyAll_above plain above]
  exact congrArg Permissions.mk bits

/-- Changes to different classes may trade places. -/
theorem apply_comm {first second : Edit} (plainFirst : first.IsPlain) (plainSecond : second.IsPlain)
    (different : first.who ≠ second.who)
    : (start.apply first).apply second = (start.apply second).apply first := by
  have plain : ∀ edit ∈ [second, first], edit.IsPlain := by simp [plainFirst, plainSecond]
  have plainSwapped : ∀ edit ∈ [first, second], edit.IsPlain := by simp [plainFirst, plainSecond]
  refine applyAll_congr plain plainSwapped fun who => ?_
  by_cases isFirst : first.who = who
  · have notSecond : second.who ≠ who := fun same => different (isFirst.trans same.symm)
    simp [isFirst, notSecond]
  · simp [List.filter_cons, isFirst]

-----------------------------------------------------------------------------------------
-- What a bitmap tells
-----------------------------------------------------------------------------------------

/-- A class has some permissions just if all their bits are set where the class is. -/
theorem has_iff {wanted : Int}
    : permissions.has who wanted
      ↔ ∀ index, bit wanted index → bit permissions.bits (who.place + index) := by
  rw [has, beq_iff_eq]
  constructor
  · intro same index isWanted
    rw [← same, bit_and, bit_down, Bool.and_eq_true] at isWanted
    exact isWanted.1
  · intro there
    refine eq_of_bit fun index => ?_
    rw [bit_and, bit_down]
    cases isWanted : bit wanted index with
    | false => rw [Bool.and_false]
    | true => rw [there index isWanted, Bool.and_true]

theorem bit_only (inGroup : index < 5)
    : bit (permissions.only who).bits (5 * another.rank + index)
      = (bit permissions.bits (5 * another.rank + index) && decide (who = another)) := by
  have full : bit fullGroup index = decide (index < 5) := bit_ones 5 index
  change bit (Bits.and _ (up fullGroup who.place)) _ = _
  rw [bit_and, bit_up_place (by decide) (by decide) inGroup, full, decide_eq_true inGroup,
    Bool.and_true]

theorem bit_only_above (above : 15 ≤ place) : bit (permissions.only who).bits place = false := by
  change bit (Bits.and _ (up fullGroup who.place)) _ = _
  rw [bit_and, bit_up_above (by decide) (by decide) above, Bool.and_false]

/-- Different classes share no bits. -/
theorem only_disjoint (different : who ≠ another)
    : Bits.and (permissions.only who).bits (permissions.only another).bits = 0 := by
  refine eq_of_groups 5 (by decide) (fun own index inGroup => ?_) fun place above => ?_
  · rw [bit_and, bit_only inGroup, bit_only inGroup, bit_zero]
    by_cases isOwn : who = own
    · have notOwn : another ≠ own := fun same => different (isOwn.trans same.symm)
      rw [decide_eq_false notOwn, Bool.and_false, Bool.and_false]
    · rw [decide_eq_false isOwn, Bool.and_false, Bool.false_and]
  · rw [bit_and, bit_only_above above, Bool.false_and, bit_zero]

/-- The classes together are all that means something. -/
theorem only_union
    : Bits.or (Bits.or (permissions.only .owner).bits (permissions.only .group).bits)
        (permissions.only .other).bits
      = Bits.and permissions.bits 0x7fff := by
  have all (place : Nat) : bit 0x7fff place = decide (place < 15) := bit_ones 15 place
  refine eq_of_groups 5 (by decide) (fun own index inGroup => ?_) fun place above => ?_
  · have low : 5 * own.rank + index < 15 := by cases own <;> simp only [Class.rank] <;> omega
    simp only [bit_or, bit_and, bit_only inGroup, all, decide_eq_true low, Bool.and_true]
    cases own <;> simp
  · simp only [bit_or, bit_and, bit_only_above above, all, decide_eq_false (Nat.not_lt.mpr above),
      Bool.and_false, Bool.or_self]

/-- After any chain of changes, each bit of a class is as the last change leaves it that names it,
or else as it was, and what is above the classes is as it was. A class has some permissions just if
all their bits are set; classes share no bits, and together they are the lowest fifteen. Only the
order of changes to the same class matters.
-/
theorem edits_last_wins (start : Permissions) {edits : List Edit}
    (plain : ∀ edit ∈ edits, edit.IsPlain)
    : let result := start.applyAll edits
      (∀ who : Class, ∀ index < 5, bit result.bits (who.place + index)
        = (lastTouch edits who index).elim (bit start.bits (who.place + index)) Edit.gives)
      ∧ (∀ place, 15 ≤ place → bit result.bits place = bit start.bits place)
      ∧ (∀ who wanted, result.has who wanted
        ↔ ∀ index, bit wanted index → bit result.bits (who.place + index))
      ∧ (∀ who another : Class, who ≠ another
        → Bits.and (result.only who).bits (result.only another).bits = 0)
      ∧ Bits.or (Bits.or (result.only .owner).bits (result.only .group).bits)
          (result.only .other).bits = Bits.and result.bits 0x7fff
      ∧ (∀ others : List Edit, (∀ edit ∈ others, edit.IsPlain)
        → (∀ who : Class, others.filter (·.who = who) = edits.filter (·.who = who))
        → start.applyAll others = result)
      ∧ ∀ first second : Edit, first.IsPlain → second.IsPlain → first.who ≠ second.who
        → (result.apply first).apply second = (result.apply second).apply first := by
  intro result
  refine ⟨?_, fun place above => bit_applyAll_above plain above, fun who wanted => has_iff,
    fun who another different => only_disjoint different, only_union,
    fun others plainOthers same => applyAll_congr plain plainOthers same,
    fun first second plainFirst plainSecond different =>
      apply_comm plainFirst plainSecond different⟩
  intro who index inGroup
  rw [who.place_eq]
  exact bit_applyAll plain inGroup

/-- The group is given reading again after it was taken, and of that only writing is taken later. -/
theorem edits_last_wins_group
    : (∀ edit ∈ [Edit.revoke .group 4, .grant .group 6, .revoke .owner 31, .revoke .group 2],
        edit.IsPlain)
      ∧ lastTouch [.revoke .group 4, .grant .group 6, .revoke .owner 31, .revoke .group 2] .group 2
        = some (.grant .group 6)
      ∧ bit (applyAll ⟨-1⟩ [.revoke .group 4, .grant .group 6, .revoke .owner 31,
          .revoke .group 2]).bits 7 = true := by
  have plain : ∀ edit ∈ [Edit.revoke .group 4, .grant .group 6, .revoke .owner 31,
      .revoke .group 2], edit.IsPlain := by decide
  exact ⟨plain, by decide, (edits_last_wins ⟨-1⟩ plain).1 .group 2 (by decide)⟩

end DiscVolume.Permissions
