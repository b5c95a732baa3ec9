import HttpContract.Proofs.Basic
import HttpContract.Store.Table

/-!
# Store.Table — the order and the records agree

The keys of a table stand in its order once each, and they are those that a record is found under
(`Table.Coupled`). Adding a record under a new key, putting one in the place of another and taking
one away keep this, and each changes one record and its place only (`Coupled.added`,
`Coupled.replaced`, `Coupled.removed`).
-/

namespace HttpContract.Table

variable {α : Type} {t t' : Table α} {key : String} {row : α}

/-- The order of a table has no key twice and exactly the keys that a record is found under. -/
structure Coupled (t : Table α) : Prop where
  nodup : t.keys.Nodup
  stored : ∀ key, key ∈ t.keys ↔ (t.find? key).isSome = true

/-! ## Changes of one record -/

/-- A record is added at the end. -/
structure Added (t : Table α) (key : String) (row : α) (t' : Table α) : Prop where
  new : key ∉ t.keys
  keys : t'.keys = t.keys ++ [key]
  rows : ∀ other, t'.find? other = if other = key then some row else t.find? other

/-- A record is put in the place of another one. -/
structure Replaced (t : Table α) (key : String) (row : α) (t' : Table α) : Prop where
  known : key ∈ t.keys
  keys : t'.keys = t.keys
  rows : ∀ other, t'.find? other = if other = key then some row else t.find? other

/-- A record is taken away. -/
structure Removed (t : Table α) (key : String) (t' : Table α) : Prop where
  keys : ∃ before behind, t.keys = before ++ key :: behind ∧ t'.keys = before ++ behind
  rows : ∀ other, t'.find? other = if other = key then none else t.find? other

/-! ## What keeps the coupling -/

theorem Coupled.empty : (⟨[], []⟩ : Table α).Coupled := ⟨.nil, fun key => by simp⟩

theorem Coupled.mem_of_find? (h : t.Coupled) (hrow : t.find? key = some row) : key ∈ t.keys :=
  (h.stored key).mpr (by rw [hrow]; rfl)

theorem Coupled.not_mem_iff (h : t.Coupled) : key ∉ t.keys ↔ t.find? key = none := by
  rw [h.stored, Bool.not_eq_true, Option.isSome_eq_false_iff, Option.isNone_iff_eq_none]

theorem Coupled.mem_iff (h : t.Coupled) : key ∈ t.keys ↔ ∃ row, t.find? key = some row := by
  rw [h.stored, Option.isSome_iff_exists]

theorem Added.coupled (h : t.Coupled) (hadd : t.Added key row t') : t'.Coupled where
  nodup := by
    rw [hadd.keys]
    exact nodup_append_singleton.mpr ⟨hadd.new, h.nodup⟩
  stored other := by
    rw [hadd.keys, hadd.rows, List.mem_append, List.mem_singleton, h.stored]
    by_cases hother : other = key <;> simp [hother]

theorem Replaced.coupled (h : t.Coupled) (hset : t.Replaced key row t') : t'.Coupled where
  nodup := hset.keys ▸ h.nodup
  stored other := by
    rw [hset.keys, hset.rows]
    by_cases hother : other = key
    · simp [hother, hset.known]
    · rw [if_neg hother, h.stored]

theorem Removed.coupled (h : t.Coupled) (hremove : t.Removed key t') : t'.Coupled := by
  obtain ⟨before, behind, hkeys, hkeys'⟩ := hremove.keys
  have hnodup := h.nodup
  rw [hkeys, List.nodup_middle, List.nodup_cons] at hnodup
  refine ⟨hkeys' ▸ hnodup.2, fun other => ?_⟩
  have hmem : other ∈ t.keys ↔ other = key ∨ other ∈ before ++ behind := by
    rw [hkeys, List.mem_append, List.mem_append, List.mem_cons]
    exact or_left_comm
  rw [hkeys', hremove.rows]
  by_cases hother : other = key
  · simpa [hother] using hnodup.1
  · rw [if_neg hother, ← h.stored, hmem, or_iff_right hother]

/-- What is found once a record is taken away was there before. -/
theorem Removed.find?_before (hremove : t.Removed key t') {other : String}
    (hfind : t'.find? other = some row) : t.find? other = some row := by
  rw [hremove.rows] at hfind
  split at hfind
  · exact nomatch hfind
  · exact hfind

/-! ## What the operations change -/

theorem filter_keys_of_not_mem {keys : List String} (h : key ∉ keys) :
    keys.filter (· ≠ key) = keys := by
  refine List.filter_eq_self.mpr fun other hother => decide_eq_true ?_
  rintro rfl
  exact h hother

theorem Coupled.added (h : t.Coupled) (hfree : t.find? key = none) (row : α) :
    t.Added key row (t.add key row) :=
  ⟨h.not_mem_iff.mpr hfree, keys_add .., fun other => find?_add t key other row⟩

theorem Coupled.replaced (h : t.Coupled) {old : α} (hold : t.find? key = some old) (row : α) :
    t.Replaced key row (t.set key row) := by
  refine ⟨h.mem_of_find? hold, keys_set .., fun other => ?_⟩
  rw [find?_set, hold, Option.map_some]

theorem Coupled.removed (h : t.Coupled) {old : α} (hold : t.find? key = some old) :
    t.Removed key (t.erase key) := by
  refine ⟨?_, fun other => find?_erase t key other⟩
  obtain ⟨before, behind, hkeys⟩ := List.append_of_mem (h.mem_of_find? hold)
  have hnodup := h.nodup
  rw [hkeys, List.nodup_middle, List.nodup_cons, List.mem_append, not_or] at hnodup
  refine ⟨before, behind, hkeys, ?_⟩
  -- the key stands nowhere else, so that filtering takes away one place
  rw [keys_erase, hkeys, List.filter_append, List.filter_cons_of_neg (by simp),
    filter_keys_of_not_mem hnodup.1.1, filter_keys_of_not_mem hnodup.1.2]

/-! ## One record for each key -/

/-- No key has two records. -/
def Single (t : Table α) : Prop := (t.rows.map (·.1)).Nodup

theorem find?_eq_none_iff : t.find? key = none ↔ key ∉ t.rows.map (·.1) := by
  rw [find?, List.lookup_eq_none_iff, List.mem_map]
  constructor
  · rintro h ⟨r, hr, rfl⟩
    simpa using h r hr
  · intro h r hr
    exact bne_iff_ne.mpr fun hkey => h ⟨r, hr, hkey.symm⟩

theorem Single.add (h : t.Single) (hfree : t.find? key = none) (row : α) :
    (t.add key row).Single :=
  List.nodup_cons.mpr ⟨find?_eq_none_iff.mp hfree, h⟩

theorem Single.erase (h : t.Single) (key : String) : (t.erase key).Single :=
  List.Nodup.sublist (List.filter_sublist.map _) h

/-- Taking away a record that is not there changes nothing. -/
theorem Coupled.erase_eq_self (h : t.Coupled) (hfree : t.find? key = none) :
    t.erase key = t := by
  have hrows : (t.rows.filter fun r => r.1 ≠ key) = t.rows := by
    refine List.filter_eq_self.mpr fun r hr => decide_eq_true ?_
    rintro rfl
    exact find?_eq_none_iff.mp hfree (List.mem_map_of_mem hr)
  rw [Table.erase, filter_keys_of_not_mem (h.not_mem_iff.mpr hfree), hrows]

theorem Coupled.erase (h : t.Coupled) (key : String) : (t.erase key).Coupled := by
  cases hfind : t.find? key with
  | none => rwa [h.erase_eq_self hfind]
  | some row => exact (h.removed hfind).coupled h

end HttpContract.Table
