/-!
# Store.Table — records in the order of their arrival

A table holds records under keys and, beside them, the order in which the keys were added. A new
record goes to the end, a changed one keeps its place, and taking one away moves no other. The
lemmas say what each operation does to the order and to a lookup.
-/

namespace HttpContract

/-- Records under keys, and the keys in the order in which they were added. -/
structure Table (α : Type) where
  keys : List String := []
  rows : List (String × α) := []

namespace Table

variable {α : Type}

/-- The record under a key. -/
def find? (t : Table α) (key : String) : Option α := t.rows.lookup key

/-- The records with their keys, in the order of the keys. -/
def entries (t : Table α) : List (String × α) :=
  t.keys.filterMap fun key => (t.find? key).map fun row => (key, row)

/-- Adds a record at the end. -/
def add (t : Table α) (key : String) (row : α) : Table α := ⟨t.keys ++ [key], (key, row) :: t.rows⟩

/-- Puts a record in the place of the one under a key. -/
def set (t : Table α) (key : String) (row : α) : Table α :=
  { t with rows := t.rows.map fun r => if r.1 = key then (key, row) else r }

/-- Takes the record under a key away. -/
def erase (t : Table α) (key : String) : Table α :=
  ⟨t.keys.filter (· ≠ key), t.rows.filter fun r => r.1 ≠ key⟩

/-! ## Order -/

@[simp] theorem keys_add (t : Table α) (key : String) (row : α) :
    (t.add key row).keys = t.keys ++ [key] := rfl

@[simp] theorem keys_set (t : Table α) (key : String) (row : α) :
    (t.set key row).keys = t.keys := rfl

@[simp] theorem keys_erase (t : Table α) (key : String) :
    (t.erase key).keys = t.keys.filter (· ≠ key) := rfl

/-! ## Lookups -/

@[simp] theorem find?_empty (key : String) : (⟨[], []⟩ : Table α).find? key = none := rfl

theorem lookup_cons_if (key other : String) (row : α) (rest : List (String × α)) :
    ((key, row) :: rest).lookup other = if other = key then some row else rest.lookup other := by
  rw [List.lookup_cons]
  by_cases h : other = key
  · simp [h]
  · simp [h, beq_eq_false_iff_ne.mpr h]

@[simp] theorem find?_add (t : Table α) (key other : String) (row : α) :
    (t.add key row).find? other = if other = key then some row else t.find? other :=
  lookup_cons_if key other row t.rows

@[simp] theorem find?_set (t : Table α) (key other : String) (row : α) :
    (t.set key row).find? other
      = if other = key then (t.find? key).map fun _ => row else t.find? other := by
  obtain ⟨keys, rows⟩ := t
  simp only [find?, set]
  induction rows with
  | nil => simp
  | cons r rest ih =>
    obtain ⟨k, v⟩ := r
    rw [List.map_cons, lookup_cons_if, lookup_cons_if]
    by_cases hk : k = key
    · rw [if_pos hk, lookup_cons_if, ih]
      by_cases h : other = key <;> simp [h, hk]
    · rw [if_neg hk, lookup_cons_if, ih]
      by_cases h : other = key
      · simp [h, Ne.symm hk]
      · simp [h]

@[simp] theorem find?_erase (t : Table α) (key other : String) :
    (t.erase key).find? other = if other = key then none else t.find? other := by
  obtain ⟨keys, rows⟩ := t
  simp only [find?, erase]
  induction rows with
  | nil => simp
  | cons r rest ih =>
    obtain ⟨k, v⟩ := r
    rw [List.filter_cons, lookup_cons_if]
    by_cases hk : k = key
    · rw [if_neg (by simp [hk]), ih]
      by_cases h : other = key <;> simp [h, hk]
    · rw [if_pos (by simp [hk]), lookup_cons_if, ih]
      by_cases h : other = key
      · simp [h, Ne.symm hk]
      · simp [h]

end Table

end HttpContract
