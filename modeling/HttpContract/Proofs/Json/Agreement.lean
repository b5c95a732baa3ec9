import Mathlib.Data.List.Perm.Subperm
import Mathlib.Data.Option.Basic
import HttpContract.Json.Equality
import HttpContract.Proofs.Json.Number
import HttpContract.Proofs.Json.Reread

/-!
# Json — values that agree

Arrays agree if their items do one by one (`agreesItems_iff`). Objects without repeated fields agree
if they have, under every key, agreeing values or none (`agrees_object_iff`); the order of the
fields does not count, nor does the side that is searched for the fields of the other. So a value
in which no field is repeated agrees with itself (`Distinct.agrees_self`), and two of them agree one
way if they do the other (`Distinct.agrees_comm`). Setting a field changes what is found under its
key and nothing else (`lookup_setField`).
-/

namespace HttpContract.Json

theorem agreesItems_iff {vs ws : List Json} :
    agreesItems vs ws = true ↔ List.Forall₂ (fun v w => v.agrees w = true) vs ws := by
  induction vs generalizing ws with
  | nil => cases ws <;> simp [agreesItems]
  | cons v vs ih => cases ws <;> simp [agreesItems, ih]

theorem agreesFields_iff {fs gs : List (String × Json)} :
    agreesFields fs gs = true
      ↔ ∀ f ∈ fs, ∃ w, gs.lookup f.1 = some w ∧ f.2.agrees w = true := by
  induction fs with
  | nil => simp [agreesFields]
  | cons f rest ih =>
    obtain ⟨k, v⟩ := f
    rw [agreesFields, Bool.and_eq_true, ih, List.forall_mem_cons]
    cases gs.lookup k <;> simp

theorem agrees_object {fs gs : List (String × Json)} :
    (object fs).agrees (object gs) = true
      ↔ fs.length = gs.length ∧ ∀ f ∈ fs, ∃ w, gs.lookup f.1 = some w ∧ f.2.agrees w = true := by
  rw [agrees, Bool.and_eq_true, beq_iff_eq, agreesFields_iff]

/-- Objects agree if agreeing values, or none, are found under every key. -/
theorem agrees_object_iff {fs gs : List (String × Json)} (hfs : (fs.map (·.1)).Nodup)
    (hgs : (gs.map (·.1)).Nodup) :
    (object fs).agrees (object gs) = true
      ↔ ∀ key, Option.Rel (fun v w => v.agrees w = true) (fs.lookup key) (gs.lookup key) := by
  rw [agrees_object]
  constructor
  · rintro ⟨hlength, hfields⟩ key
    -- as many keys, each of them among the others: the same keys
    have hsubset : fs.map (·.1) ⊆ gs.map (·.1) := by
      intro k hk
      obtain ⟨f, hf, rfl⟩ := List.mem_map.mp hk
      obtain ⟨w, hw, -⟩ := hfields f hf
      rw [mem_keys_iff, hw]
      rfl
    have hperm : (fs.map (·.1)).Perm (gs.map (·.1)) :=
      (List.subperm_of_subset hfs hsubset).perm_of_length_le (by simp [hlength])
    cases hv : fs.lookup key with
    | some v =>
      obtain ⟨w, hw, hagrees⟩ := hfields (key, v) (mem_of_lookup hv)
      rw [hw]
      exact .some hagrees
    | none =>
      have hkey : key ∉ gs.map (·.1) := by
        rw [← hperm.mem_iff, mem_keys_iff, hv]
        decide
      rw [mem_keys_iff, Option.not_isSome_iff_eq_none] at hkey
      rw [hkey]
      exact .none
  · intro h
    have hkeys : ∀ key, key ∈ fs.map (·.1) ↔ key ∈ gs.map (·.1) := by
      intro key
      have hrel := h key
      rw [mem_keys_iff, mem_keys_iff]
      generalize fs.lookup key = v, gs.lookup key = w at hrel ⊢
      cases hrel <;> simp
    have hlength := ((List.perm_ext_iff_of_nodup hfs hgs).mpr hkeys).length_eq
    rw [List.length_map, List.length_map] at hlength
    refine ⟨hlength, fun f hf => ?_⟩
    have hrel := h f.1
    rw [lookup_of_nodup hfs hf] at hrel
    generalize gs.lookup f.1 = found at hrel
    cases hrel with
    | some hv => exact ⟨_, rfl, hv⟩

/-! ## Both ways -/

/-- A value agrees with itself. -/
theorem Distinct.agrees_self {v : Json} (h : v.Distinct) : v.agrees v = true := by
  induction h with
  | null => rfl
  | bool b => exact beq_self_eq_true b
  | number n => exact n.same_self
  | string s => exact beq_self_eq_true s
  | array _ ih => exact agreesItems_iff.mpr (List.forall₂_same.mpr ih)
  | object hkeys _ ih =>
    exact agrees_object.mpr ⟨rfl, fun f hf => ⟨f.2, lookup_of_nodup hkeys hf, ih f hf⟩⟩

theorem agreesItems_comm {vs ws : List Json}
    (h : ∀ v ∈ vs, ∀ w ∈ ws, v.agrees w = w.agrees v) : agreesItems vs ws = agreesItems ws vs := by
  induction vs generalizing ws with
  | nil => cases ws <;> rfl
  | cons v vs ih =>
    cases ws with
    | nil => rfl
    | cons w ws =>
      rw [agreesItems, agreesItems, h v (by simp) w (by simp),
        ih fun v' hv w' hw => h v' (by simp [hv]) w' (by simp [hw])]

/-- Two values agree one way if they agree the other way. -/
theorem Distinct.agrees_comm {v w : Json} (hv : v.Distinct) (hw : w.Distinct) :
    v.agrees w = w.agrees v := by
  induction hv generalizing w with
  | null => cases hw <;> rfl
  | bool b =>
    cases hw with
    | bool c => exact BEq.comm
    | _ => rfl
  | number m =>
    cases hw with
    | number n => exact m.same_comm n
    | _ => rfl
  | string s =>
    cases hw with
    | string t => exact BEq.comm
    | _ => rfl
  | array _ ih =>
    cases hw with
    | array hws => exact agreesItems_comm fun v hv w hw => ih v hv (hws w hw)
    | _ => rfl
  | @object fs hkeys _ ih =>
    cases hw with
    | @object gs hkeys' hgs =>
      rw [Bool.eq_iff_iff, agrees_object_iff hkeys hkeys', agrees_object_iff hkeys' hkeys]
      refine forall_congr' fun key => ?_
      cases hv : fs.lookup key with
      | none => cases gs.lookup key <;> simp
      | some v =>
        cases hw : gs.lookup key with
        | none => simp
        | some w =>
          have hboth := ih _ (mem_of_lookup hv) (hgs _ (mem_of_lookup hw))
          simp [hboth]
    | _ => rfl

/-! ## Setting a field -/

theorem lookup_setField (key other : String) (value : Json) (fields : List (String × Json)) :
    (setField key value fields).lookup other
      = if other = key then some value else fields.lookup other := by
  rw [setField_eq_alter, lookup_alter]
  cases fields.lookup key <;> rfl

theorem nodup_keys_setField (key : String) (value : Json) {fields : List (String × Json)}
    (h : (fields.map (·.1)).Nodup) : ((setField key value fields).map (·.1)).Nodup := by
  rw [setField_eq_alter]
  exact nodup_keys_alter h

end HttpContract.Json
