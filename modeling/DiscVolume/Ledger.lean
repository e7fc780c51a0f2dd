/-! Ledgers: values under distinct keys, in the order in which the keys were first written. -/

namespace DiscVolume

structure Ledger (α : Type) where
  entries : List (String × α) := []
  /-- No key is written twice. -/
  distinct : (entries.map Prod.fst).Nodup := by simp

namespace Ledger

/-- (written key value entries) has the value at the place of the key, or else at the end. -/
def written (key : String) (value : α) : List (String × α) → List (String × α)
  | [] => [(key, value)]
  | (other, kept) :: rest =>
      if other = key then (key, value) :: rest else (other, kept) :: written key value rest

/-- Writing keeps the keys, and adds the key at the end if it is new. -/
theorem map_fst_written (key : String) (value : α) (entries : List (String × α))
    : (written key value entries).map Prod.fst
      = if key ∈ entries.map Prod.fst then entries.map Prod.fst
        else entries.map Prod.fst ++ [key] := by
  induction entries with
  | nil => simp [written]
  | cons entry rest ih =>
      obtain ⟨other, kept⟩ := entry
      by_cases same : other = key
      · simp [written, same]
      · have differs : ¬ key = other := fun h => same h.symm
        simp only [written, same, if_false, List.map_cons, ih, List.mem_cons, differs, false_or]
        split <;> rfl

/-- Nothing is written yet. -/
def empty : Ledger α := {}

instance : Inhabited (Ledger α) := ⟨empty⟩

def keys (ledger : Ledger α) : List String := ledger.entries.map Prod.fst

def size (ledger : Ledger α) : Nat := ledger.entries.length

/-- The entries in the order of their keys. -/
def sorted (ledger : Ledger α) : List (String × α) :=
  ledger.entries.mergeSort fun left right => left.1 ≤ right.1

/-- The value under a key. -/
def get? (ledger : Ledger α) (key : String) : Option α := ledger.entries.lookup key

/-- Writes a value under a key, in the place of what is there. -/
def put (ledger : Ledger α) (key : String) (value : α) : Ledger α where
  entries := written key value ledger.entries
  distinct := by
    rw [map_fst_written]
    split
    · exact ledger.distinct
    · next absent =>
        refine List.nodup_append.mpr ⟨ledger.distinct, by simp, ?_⟩
        intro other member found same
        simp only [List.mem_singleton] at same
        exact fun h => absent (same ▸ h ▸ member)

/-- Removes a key with its value. -/
def drop (ledger : Ledger α) (key : String) : Ledger α where
  entries := ledger.entries.filter (fun entry => entry.1 ≠ key)
  distinct := ledger.distinct.sublist (List.filter_sublist.map Prod.fst)

@[ext]
theorem ext {left right : Ledger α} (h : left.entries = right.entries) : left = right := by
  cases left
  cases right
  simpa using h

/-- Looking up a key takes the first entry with it. -/
theorem lookup_cons (key place : String) (kept : α) (rest : List (String × α))
    : List.lookup key ((place, kept) :: rest)
      = if key = place then some kept else rest.lookup key := by
  rw [List.lookup_cons]
  by_cases h : key = place
  · simp [h]
  · simp [h, beq_false_of_ne h]

@[simp]
theorem get?_empty (key : String) : (empty : Ledger α).get? key = none := rfl

@[simp]
theorem keys_empty : (empty : Ledger α).keys = [] := rfl

/-- A key reads back what was written under it, and other keys are not affected. -/
theorem get?_put (ledger : Ledger α) (key : String) (value : α) (other : String)
    : (ledger.put key value).get? other
      = if other = key then some value else ledger.get? other := by
  simp only [get?, put]
  induction ledger.entries with
  | nil => simp [written, lookup_cons]
  | cons entry rest ih =>
      obtain ⟨place, kept⟩ := entry
      by_cases same : place = key
      · subst same
        by_cases h : other = place <;> simp [written, lookup_cons, h]
      · by_cases h : other = place
        · simp [written, same, h]
        · simp [written, same, lookup_cons, h, ih]

/-- Writing what is there already changes nothing. -/
theorem put_of_get? {ledger : Ledger α} {key : String} {value : α}
    (found : ledger.get? key = some value)
    : ledger.put key value = ledger := by
  apply ext
  simp only [get?] at found
  simp only [put]
  generalize ledger.entries = entries at found
  induction entries with
  | nil => cases found
  | cons entry rest ih =>
      obtain ⟨place, kept⟩ := entry
      rw [lookup_cons] at found
      by_cases same : place = key
      · rw [if_pos same.symm] at found
        cases found
        simp [written, same]
      · rw [if_neg (fun h => same h.symm)] at found
        simp only [written, same, if_false, ih found]

/-- Of two values that are written under a key only the later one stays. -/
theorem put_put (ledger : Ledger α) (key : String) (first second : α)
    : (ledger.put key first).put key second = ledger.put key second := by
  apply ext
  simp only [put]
  induction ledger.entries with
  | nil => simp [written]
  | cons entry rest ih =>
      obtain ⟨place, kept⟩ := entry
      by_cases same : place = key
      · simp [written, same]
      · simp only [written, same, if_false, ih]

/-- A removed key has no value, and other keys are not affected. -/
theorem get?_drop (ledger : Ledger α) (key other : String)
    : (ledger.drop key).get? other = if other = key then none else ledger.get? other := by
  simp only [get?, drop]
  induction ledger.entries with
  | nil => simp
  | cons entry rest ih =>
      obtain ⟨place, kept⟩ := entry
      by_cases same : place = key
      · rw [List.filter_cons_of_neg (by simp [same]), ih, lookup_cons, same]
        by_cases h : other = key <;> simp [h]
      · rw [List.filter_cons_of_pos (by simp [same]), lookup_cons, lookup_cons, ih]
        by_cases h : other = place <;> simp [h, same]

/-- Exactly the keys of a ledger have a value. -/
theorem isSome_get?_iff (ledger : Ledger α) (key : String)
    : (ledger.get? key).isSome ↔ key ∈ ledger.keys := by
  simp only [get?, keys]
  induction ledger.entries with
  | nil => simp
  | cons entry rest ih =>
      obtain ⟨place, kept⟩ := entry
      by_cases h : key = place
      · simp [h]
      · simp only [lookup_cons, h, if_false, ih, List.map_cons, List.mem_cons, false_or]

/-- Removing a key that is not there changes nothing. -/
theorem drop_of_get?_eq_none {ledger : Ledger α} {key : String} (absent : ledger.get? key = none)
    : ledger.drop key = ledger := by
  have unknown : key ∉ ledger.keys := by
    rw [← isSome_get?_iff, absent]
    exact Bool.false_ne_true
  apply ext
  simp only [drop]
  rw [List.filter_eq_self]
  intro entry member
  rw [decide_eq_true_eq]
  rintro rfl
  exact unknown (List.mem_map_of_mem member)

/-- A new key comes last; a known key keeps its place. -/
theorem keys_put (ledger : Ledger α) (key : String) (value : α)
    : (ledger.put key value).keys
      = if key ∈ ledger.keys then ledger.keys else ledger.keys ++ [key] :=
  map_fst_written key value ledger.entries

/-- There is one key for each entry. -/
theorem length_keys (ledger : Ledger α) : ledger.keys.length = ledger.size := List.length_map _

/-- A new key adds one to the size; a known key leaves it as it is. -/
theorem size_put (ledger : Ledger α) (key : String) (value : α)
    : (ledger.put key value).size
      = if key ∈ ledger.keys then ledger.size else ledger.size + 1 := by
  simp only [← length_keys, keys_put]
  split <;> simp

/-- The other keys keep their order when one is removed. -/
theorem keys_drop (ledger : Ledger α) (key : String)
    : (ledger.drop key).keys = ledger.keys.filter (fun other => other ≠ key) := by
  simp only [keys, drop, List.filter_map]
  rfl

end Ledger

end DiscVolume
