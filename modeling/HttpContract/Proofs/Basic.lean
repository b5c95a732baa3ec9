import Mathlib.Algebra.GroupWithZero.Nat
import Mathlib.Data.List.Forall2
import Mathlib.Data.List.Nodup

/-!
# Basic — outcomes and lists

What the theory uses of computations that may fail, of running through a list with them, of lists
and optional values that are mapped, and of fields that are kept by name.
-/

namespace HttpContract

variable {α β γ ε : Type}

/-! ## Outcomes -/

theorem bind_ok {x : Except ε α} {f : α → Except ε β} {r : β} :
    x >>= f = .ok r ↔ ∃ a, x = .ok a ∧ f a = .ok r := by
  cases x with
  | error e => simp [Bind.bind, Except.bind]
  | ok a => simp [Bind.bind, Except.bind]

theorem pure_ok {a r : α} : (pure a : Except ε α) = .ok r ↔ a = r := by
  simp [pure, Except.pure]

theorem map_ok {f : α → β} {x : Except ε α} {r : β} :
    x.map f = .ok r ↔ ∃ a, x = .ok a ∧ f a = r := by
  cases x <;> simp [Except.map]

theorem mapError_ok {δ : Type} {f : ε → δ} {x : Except ε α} {a : α} :
    x.mapError f = .ok a ↔ x = .ok a := by
  cases x <;> simp [Except.mapError]

theorem map_mapM {β γ : Type} (g : α → Option β) (h : β → γ) (l : List α) :
    (l.mapM g).map (List.map h) = l.mapM fun a => (g a).map h := by
  induction l with
  | nil => rfl
  | cons a l ih =>
    rw [List.mapM_cons, List.mapM_cons, ← ih]
    cases g a <;> cases l.mapM g <;> rfl

theorem forall₂_of_mapM {β : Type} {g : α → Option β} {l : List α} {bs : List β}
    (h : l.mapM g = some bs) : List.Forall₂ (fun a b => g a = some b) l bs := by
  induction l generalizing bs with
  | nil =>
    cases h
    exact .nil
  | cons a l ih =>
    simp only [List.mapM_cons, Option.bind_eq_bind, Option.bind_eq_some_iff, Option.pure_def,
      Option.some.injEq] at h
    obtain ⟨b, hb, rest, hrest, rfl⟩ := h
    exact .cons hb (ih hrest)

theorem ok_of_toOption {x : Except ε α} {a : α} (h : x.toOption = some a) : x = .ok a := by
  cases x with
  | error e => cases h
  | ok b =>
    cases h
    rfl

/-- A check of the outcome that passes is a check of a result. -/
theorem exists_ok_of_any {x : Except ε α} {p : α → Bool} (h : x.toOption.any p = true) :
    ∃ a, x = .ok a ∧ p a = true := by
  cases x with
  | error e => cases h
  | ok a => exact ⟨a, rfl, h⟩

/-- What every step keeps holds in the end. -/
theorem foldlM_keeps {f : β → α → Except ε β} {P : β → Prop} {xs : List α} {b r : β} (hb : P b)
    (hstep : ∀ x ∈ xs, ∀ b b', P b → f b x = .ok b' → P b') (h : xs.foldlM f b = .ok r) :
    P r := by
  induction xs generalizing b with
  | nil =>
    cases h
    exact hb
  | cons x xs ih =>
    rw [List.foldlM_cons, bind_ok] at h
    obtain ⟨b', hb', h⟩ := h
    exact ih (hstep x (by simp) b b' hb hb') (fun y hy => hstep y (by simp [hy])) h

/-- What every step adds at most is there in the end at most. -/
theorem foldlM_adds {f : β → α → Except ε β} (size : β → Nat) (added : α → Nat) {xs : List α}
    {b r : β} (hstep : ∀ x b b', f b x = .ok b' → size b' ≤ size b + added x)
    (h : xs.foldlM f b = .ok r) : size r ≤ size b + (xs.map added).sum := by
  induction xs generalizing b with
  | nil =>
    cases h
    exact Nat.le_add_right ..
  | cons x xs ih =>
    rw [List.foldlM_cons, bind_ok] at h
    obtain ⟨b', hb', h⟩ := h
    have hfirst := hstep x b b' hb'
    have hrest := ih h
    rw [List.map_cons, List.sum_cons]
    omega

/-! ## Lists -/

theorem mem_of_lookup {fields : List (String × α)} {key : String} {v : α}
    (h : fields.lookup key = some v) : (key, v) ∈ fields := by
  obtain ⟨before, behind, rfl, -⟩ := List.lookup_eq_some_iff.mp h
  simp

theorem lookup_of_nodup {fields : List (String × α)} (h : (fields.map (·.1)).Nodup)
    {f : String × α} (hf : f ∈ fields) : fields.lookup f.1 = some f.2 := by
  induction fields with
  | nil => cases hf
  | cons g rest ih =>
    rw [List.map_cons, List.nodup_cons] at h
    obtain ⟨k, v⟩ := g
    rcases List.mem_cons.mp hf with rfl | hf
    · exact List.lookup_cons_self
    · have hne : f.1 ≠ k := fun heq => h.1 (List.mem_map.mpr ⟨f, hf, heq⟩)
      rw [List.lookup_cons, beq_eq_false_iff_ne.mpr hne]
      exact ih h.2 hf

theorem nodup_append_singleton {l : List α} {a : α} : (l ++ [a]).Nodup ↔ a ∉ l ∧ l.Nodup := by
  rw [List.nodup_middle, List.append_nil, List.nodup_cons]

theorem map_eq_self {f : α → α} {l : List α} (h : ∀ a ∈ l, f a = a) : l.map f = l :=
  (List.map_congr_left h).trans (List.map_id l)

theorem option_map_eq_self {f : α → α} {o : Option α} (h : ∀ a ∈ o, f a = a) : o.map f = o := by
  cases o with
  | none => rfl
  | some a => rw [Option.map_some, h a rfl]

theorem all_congr_left {f g : α → Bool} {l : List α} (h : ∀ a ∈ l, f a = g a) :
    l.all f = l.all g := by
  rw [Bool.eq_iff_iff, List.all_eq_true, List.all_eq_true]
  exact forall₂_congr fun a ha => by rw [h a ha]

theorem forall₂_map {R : β → γ → Prop} {f : α → β} {g : α → γ} {l : List α}
    (h : ∀ a ∈ l, R (f a) (g a)) : List.Forall₂ R (l.map f) (l.map g) := by
  rw [List.forall₂_map_left_iff, List.forall₂_map_right_iff, List.forall₂_same]
  exact h

theorem forall₂_of_map_eq {f : α → β} {as bs : List α} (h : as.map f = bs.map f) :
    List.Forall₂ (fun a b => f a = f b) as bs := by
  rwa [← List.forall₂_eq_eq_eq, List.forall₂_map_left_iff, List.forall₂_map_right_iff] at h

theorem map_eq_of_forall₂ {R : α → β → Prop} {f : α → γ} {g : β → γ} {as : List α} {bs : List β}
    (hR : ∀ a b, R a b → g b = f a) (h : List.Forall₂ R as bs) : bs.map g = as.map f := by
  induction h with
  | nil => rfl
  | cons hab _ ih => rw [List.map_cons, List.map_cons, hR _ _ hab, ih]

theorem exists_of_forall₂_left {R : α → β → Prop} {as : List α} {bs : List β}
    (h : List.Forall₂ R as bs) {a : α} (ha : a ∈ as) : ∃ b ∈ bs, R a b := by
  induction h with
  | nil => cases ha
  | @cons a' b _ _ hab _ ih =>
    rcases List.mem_cons.mp ha with rfl | ha
    · exact ⟨b, by simp, hab⟩
    · obtain ⟨b', hb', hab'⟩ := ih ha
      exact ⟨b', by simp [hb'], hab'⟩

theorem exists_of_forall₂_right {R : α → β → Prop} {as : List α} {bs : List β}
    (h : List.Forall₂ R as bs) {b : β} (hb : b ∈ bs) : ∃ a ∈ as, R a b :=
  exists_of_forall₂_left h.flip hb

theorem split_at {l : List α} {i : Nat} {a : α} (h : l[i]? = some a) :
    ∃ before rest, l = before ++ a :: rest ∧ ∀ b, l.set i b = before ++ b :: rest := by
  obtain ⟨hlt, rfl⟩ := List.getElem?_eq_some_iff.mp h
  have hset : ∀ b, l.set i b = l.take i ++ b :: l.drop (i + 1) := by
    intro b
    rw [List.set_eq_take_append_cons_drop, if_pos hlt]
  exact ⟨l.take i, l.drop (i + 1), by rw [← hset, List.set_getElem_self], hset⟩

theorem forall₂_append_left {R : α → β → Prop} {first second : List α} {bs : List β}
    (h : List.Forall₂ R (first ++ second) bs) :
    ∃ bs₁ bs₂, List.Forall₂ R first bs₁ ∧ List.Forall₂ R second bs₂ ∧ bs = bs₁ ++ bs₂ := by
  induction first generalizing bs with
  | nil => exact ⟨[], bs, .nil, h, rfl⟩
  | cons a first ih =>
    obtain _ | ⟨hab, h⟩ := h
    obtain ⟨bs₁, bs₂, hfirst, hsecond, rfl⟩ := ih h
    exact ⟨_ :: bs₁, bs₂, .cons hab hfirst, hsecond, rfl⟩

/-! ## Fields -/

section Fields

variable {fields : List (String × α)} {key : String} {new : α} {change : α → α}

/-- Changes the value under a key where it stands first; a new key goes to the end. -/
def alter (key : String) (new : α) (change : α → α) : List (String × α) → List (String × α)
  | [] => [(key, new)]
  | (k, v) :: rest => if k = key then (k, change v) :: rest else (k, v) :: alter key new change rest

theorem alter_new (h : key ∉ fields.map (·.1)) :
    alter key new change fields = fields ++ [(key, new)] := by
  induction fields with
  | nil => rfl
  | cons f rest ih =>
    rw [List.map_cons, List.mem_cons, not_or] at h
    rw [alter, if_neg (Ne.symm h.1), ih h.2, List.cons_append]

theorem mem_keys_iff : key ∈ fields.map (·.1) ↔ (fields.lookup key).isSome = true := by
  induction fields with
  | nil => simp
  | cons f rest ih =>
    obtain ⟨k, v⟩ := f
    rw [List.map_cons, List.mem_cons, List.lookup_cons, ih]
    by_cases hk : key = k
    · simp [hk]
    · simp [hk, beq_false_of_ne hk]

theorem lookup_alter (key other : String) (new : α) (change : α → α)
    (fields : List (String × α)) :
    (alter key new change fields).lookup other
      = if other = key then some ((fields.lookup key).elim new change)
        else fields.lookup other := by
  induction fields with
  | nil =>
    rw [alter, List.lookup_cons, List.lookup_nil]
    by_cases hother : other = key
    · simp [hother]
    · simp [hother, beq_false_of_ne hother]
  | cons f rest ih =>
    obtain ⟨k, v⟩ := f
    rw [alter]
    by_cases hk : k = key
    · subst hk
      rw [if_pos rfl, List.lookup_cons]
      by_cases hother : other = k
      · simp [hother]
      · simp [hother, List.lookup_cons, beq_false_of_ne hother]
    · rw [if_neg hk, List.lookup_cons, ih, List.lookup_cons, List.lookup_cons,
        beq_false_of_ne (Ne.symm hk)]
      by_cases hother : other = k
      · subst hother
        simp [hk]
      · simp [beq_false_of_ne hother]

theorem keys_alter (key : String) (new : α) (change : α → α) (fields : List (String × α)) :
    (alter key new change fields).map (·.1)
      = if key ∈ fields.map (·.1) then fields.map (·.1) else fields.map (·.1) ++ [key] := by
  induction fields with
  | nil => rfl
  | cons f rest ih =>
    obtain ⟨k, v⟩ := f
    rw [alter]
    by_cases hk : k = key
    · simp [hk]
    · have hmem : key ∈ ((k, v) :: rest).map (·.1) ↔ key ∈ rest.map (·.1) := by
        simp [Ne.symm hk]
      rw [if_neg hk, List.map_cons, ih]
      simp only [hmem]
      split <;> rfl

theorem mem_keys_alter {other : String} :
    other ∈ (alter key new change fields).map (·.1) ↔ other = key ∨ other ∈ fields.map (·.1) := by
  rw [keys_alter]
  split
  · rename_i hmem
    exact ⟨.inr, fun h => h.elim (fun heq => heq ▸ hmem) id⟩
  · rw [List.mem_append, List.mem_singleton]
    exact or_comm

theorem nodup_keys_alter (h : (fields.map (·.1)).Nodup) :
    ((alter key new change fields).map (·.1)).Nodup := by
  rw [keys_alter]
  split
  · exact h
  · rename_i hnew
    exact nodup_append_singleton.mpr ⟨hnew, h⟩

/-- What the values of fields have in common stays if the new value and a change of the old one have
it as well. -/
theorem forall_alter {P : α → Prop} (hnew : P new) (hchange : ∀ v, P v → P (change v))
    (h : ∀ f ∈ fields, P f.2) : ∀ f ∈ alter key new change fields, P f.2 := by
  induction fields with
  | nil =>
    intro f hf
    rw [List.mem_singleton.mp hf]
    exact hnew
  | cons g rest ih =>
    obtain ⟨k, v⟩ := g
    rw [List.forall_mem_cons] at h
    rw [alter]
    split
    · exact List.forall_mem_cons.mpr ⟨hchange v h.1, h.2⟩
    · exact List.forall_mem_cons.mpr ⟨h.1, ih h.2⟩

end Fields

end HttpContract
