import HttpContract.Proofs.Constraint.Growth

/-!
# Constraint — the extent of what is read

How many nodes a tree has and how deep its objects, arrays and two-sided values are nested. A tree
is never larger than the expression that it is the meaning of (`value_extent`): a call makes a
single node, or a two-sided value with two different fields of the object that it is given.
-/

namespace HttpContract.Constraint

open Script (Bindings Builtin Expression TokenKind keyOf? putField)
open Script.Builtin (firstField? make makeNumber stubKeys testKeys)
open Script.Expression (fieldValues fieldNodes fieldDepth itemValues itemNodes itemDepth)

variable {n : Nat} {c : Constraint}

/-! ## Nodes and levels -/

mutual

/-- How many nodes there are in a tree. -/
def nodeCount : Constraint → Nat
  | constant _ => 1
  | object fields => 1 + fieldNodeCount fields
  | array items => 1 + itemNodeCount items
  | matcher _ => 1
  | extraction _ => 1
  | dual _ stub test => 1 + branchNodeCount stub + branchNodeCount test
termination_by structural c => c

/-- How many nodes there are in fields. -/
def fieldNodeCount : List (String × Constraint) → Nat
  | [] => 0
  | (_, c) :: rest => c.nodeCount + fieldNodeCount rest
termination_by structural fields => fields

/-- How many nodes there are in items. -/
def itemNodeCount : List Constraint → Nat
  | [] => 0
  | c :: rest => c.nodeCount + itemNodeCount rest
termination_by structural items => items

/-- How many nodes there are in a side. -/
def branchNodeCount : Option Constraint → Nat
  | none => 0
  | some c => c.nodeCount
termination_by structural c => c

end

mutual

/-- How deep objects, arrays and two-sided values are nested in a tree. -/
def nesting : Constraint → Nat
  | constant _ => 0
  | object fields => 1 + fieldNesting fields
  | array items => 1 + itemNesting items
  | matcher _ => 0
  | extraction _ => 0
  | dual _ stub test => 1 + max (branchNesting stub) (branchNesting test)
termination_by structural c => c

/-- How deep containers are nested in fields. -/
def fieldNesting : List (String × Constraint) → Nat
  | [] => 0
  | (_, c) :: rest => max c.nesting (fieldNesting rest)
termination_by structural fields => fields

/-- How deep containers are nested in items. -/
def itemNesting : List Constraint → Nat
  | [] => 0
  | c :: rest => max c.nesting (itemNesting rest)
termination_by structural items => items

/-- How deep containers are nested in a side. -/
def branchNesting : Option Constraint → Nat
  | none => 0
  | some c => c.nesting
termination_by structural c => c

end

theorem fieldNodeCount_eq_sum (fields : List (String × Constraint)) :
    fieldNodeCount fields = (fields.map fun f => f.2.nodeCount).sum := by
  induction fields with
  | nil => rfl
  | cons f rest ih => rw [fieldNodeCount, ih, List.map_cons, List.sum_cons]

theorem itemNodeCount_eq_sum (items : List Constraint) :
    itemNodeCount items = (items.map nodeCount).sum := by
  induction items with
  | nil => rfl
  | cons c rest ih => rw [itemNodeCount, ih, List.map_cons, List.sum_cons]

theorem branchNodeCount_eq_elim (branch : Option Constraint) :
    branchNodeCount branch = branch.elim 0 nodeCount := by
  cases branch <;> rfl

theorem fieldNesting_le_iff {fields : List (String × Constraint)} :
    fieldNesting fields ≤ n ↔ ∀ f ∈ fields, f.2.nesting ≤ n := by
  induction fields with
  | nil => simp [fieldNesting]
  | cons f rest ih => rw [fieldNesting, max_le_iff, ih, List.forall_mem_cons]

theorem itemNesting_le_iff {items : List Constraint} :
    itemNesting items ≤ n ↔ ∀ c ∈ items, c.nesting ≤ n := by
  induction items with
  | nil => simp [itemNesting]
  | cons c rest ih => rw [itemNesting, max_le_iff, ih, List.forall_mem_cons]

theorem branchNesting_le {branch : Option Constraint} (h : ∀ c ∈ branch, c.nesting ≤ n) :
    branchNesting branch ≤ n := by
  cases branch with
  | none => exact Nat.zero_le _
  | some c => exact h c rfl

/-! ## Calls -/

/-- A call makes a matcher, a query, or a two-sided value with fields of an argument. -/
theorem make_shape [Library] {b : Builtin} {arguments : List (Option Constraint)}
    (h : b.make arguments = .ok c) :
    (∃ m, c = .matcher m) ∨ (∃ e, c = .extraction e)
      ∨ ∃ s fields, some (.object fields) ∈ arguments
        ∧ c = .dual s (firstField? fields stubKeys) (firstField? fields testKeys) := by
  have hnumber : ∀ {kind}, makeNumber kind arguments.head?.join = .ok c →
      ∃ m, c = .matcher m := by
    intro kind h
    simp only [makeNumber, bind_ok, pure_ok] at h
    obtain ⟨options, -, limits, -, rfl⟩ := h
    exact ⟨_, rfl⟩
  cases b with
  | regex =>
    obtain ⟨m, hm, -⟩ := Script.Builtin.makeRegex_scripted h
    exact .inl ⟨m, hm⟩
  | integer => exact .inl (hnumber h)
  | float => exact .inl (hnumber h)
  | date =>
    obtain ⟨m, hm, -⟩ := Script.Builtin.makeDate_scripted h
    exact .inl ⟨m, hm⟩
  | text =>
    obtain ⟨m, hm, -⟩ := Script.Builtin.makeText_scripted h
    exact .inl ⟨m, hm⟩
  | name | email | phone | address | uuid4 =>
    cases h
    exact .inl ⟨_, rfl⟩
  | anyOf | notAnyOf =>
    obtain ⟨vs, -, rfl⟩ := map_ok.mp h
    exact .inl ⟨_, rfl⟩
  | jsonpath =>
    obtain ⟨e, rfl, -⟩ := Script.Builtin.makeExtraction_ok h
    exact .inr (.inl ⟨e, rfl⟩)
  | value => exact .inr (.inr ⟨.both, Script.Builtin.dual_ok h⟩)
  | stubValue => exact .inr (.inr ⟨.stubOnly, Script.Builtin.dual_ok h⟩)
  | testValue => exact .inr (.inr ⟨.testOnly, Script.Builtin.dual_ok h⟩)

/-- A tree is no larger than so many nodes and levels. -/
structure FitsIn (c : Constraint) (nodes levels : Nat) : Prop where
  nodes : c.nodeCount ≤ nodes
  levels : c.nesting ≤ levels

/-- A two-sided value is no larger than the object that its sides are from. -/
theorem fitsIn_dual (s : Sidedness) {fields : List (String × Constraint)} {nodes levels : Nat}
    (h : (object fields).FitsIn nodes levels) :
    (dual s (firstField? fields stubKeys) (firstField? fields testKeys)).FitsIn nodes levels := by
  obtain ⟨hnodes, hlevels⟩ := h
  rw [nodeCount, fieldNodeCount_eq_sum] at hnodes
  rw [nesting] at hlevels
  have hsum := sides_le_sum nodeCount fields
  have hfields := fieldNesting_le_iff.mp (le_refl (fieldNesting fields))
  refine ⟨?_, ?_⟩
  · rw [nodeCount, branchNodeCount_eq_elim, branchNodeCount_eq_elim]
    omega
  · have hstub : ∀ c ∈ firstField? fields stubKeys, c.nesting ≤ fieldNesting fields :=
      forall_firstField hfields
    have htest : ∀ c ∈ firstField? fields testKeys, c.nesting ≤ fieldNesting fields :=
      forall_firstField hfields
    have hstub := branchNesting_le hstub
    have htest := branchNesting_le htest
    rw [nesting]
    omega

/-- What a call makes is no larger than one node, or than an argument. -/
theorem fitsIn_apply [Library] {b : Builtin} {arguments : List (Option Constraint)}
    {nodes levels : Nat} (h : b.apply arguments = .ok c) (hpos : 1 ≤ nodes)
    (harguments : ∀ d, some d ∈ arguments → d.FitsIn nodes levels) : c.FitsIn nodes levels := by
  rcases make_shape (Script.Builtin.make_of_apply h) with
    ⟨m, rfl⟩ | ⟨e, rfl⟩ | ⟨s, fields, hfields, rfl⟩
  · exact ⟨hpos, Nat.zero_le _⟩
  · exact ⟨hpos, Nat.zero_le _⟩
  · exact fitsIn_dual s (harguments _ hfields)

/-! ## Expressions -/

theorem fieldNodeCount_putField (key : String) (value : Option Constraint)
    (fields : List (String × Constraint)) :
    fieldNodeCount (putField key value fields)
      ≤ fieldNodeCount fields + (value.getD (.constant .null)).nodeCount := by
  simp only [fieldNodeCount_eq_sum]
  have hothers : ((fields.filter fun f => f.1 ≠ key).map fun f => f.2.nodeCount).sum
      ≤ (fields.map fun f => f.2.nodeCount).sum := sum_le_of_sublist List.filter_sublist
  cases value with
  | none => exact hothers.trans (Nat.le_add_right ..)
  | some c =>
    have hput : putField key (some c) fields = fields.filter (fun f => f.1 ≠ key) ++ [(key, c)] :=
      rfl
    rw [hput, List.map_append, List.sum_append_nat]
    exact Nat.add_le_add_right hothers _

theorem fitsIn_constant (v : Json) (nodes levels : Nat) :
    (constant v).FitsIn (1 + nodes) levels := ⟨Nat.le_add_right .., Nat.zero_le _⟩

variable {bindings : Bindings}

mutual

/-- What an expression means is no larger than the expression; what means nothing counts as null. -/
theorem value_extent [Library] (e : Expression) {v : Option Constraint}
    (h : e.value bindings = some v) :
    (v.getD (.constant .null)).FitsIn e.nodes e.depth :=
  match e with
  | .word name => by
    simp only [Expression.value, Option.ite_none_right_eq_some] at h
    have hword := h.2
    unfold Script.wordValue? at hword
    split at hword <;> cases hword <;> exact fitsIn_constant _ 0 0
  | .string x => by
    cases h
    exact fitsIn_constant _ 0 0
  | .number m => by
    cases h
    exact fitsIn_constant _ 0 0
  | .signed negative m => by
    cases h
    exact fitsIn_constant _ 0 0
  | .object fields trailing => by
    simp only [Expression.value, Option.map_eq_some_iff] at h
    obtain ⟨vs, hvs, rfl⟩ := h
    obtain ⟨hnodes, hlevels⟩ := fieldValues_extent fields hvs
    rw [fieldNodeCount, Nat.zero_add] at hnodes
    refine ⟨Nat.add_le_add_left hnodes 1, Nat.add_le_add_left ?_ 1⟩
    exact fieldNesting_le_iff.mpr (hlevels _ (Nat.le_refl _) (by simp))
  | .array items trailing => by
    simp only [Expression.value, Option.map_eq_some_iff] at h
    obtain ⟨vs, hvs, rfl⟩ := h
    obtain ⟨hnodes, hlevels⟩ := itemValues_extent items hvs
    refine ⟨Nat.add_le_add_left ?_ 1, Nat.add_le_add_left ?_ 1⟩
    · rwa [itemNodeCount_eq_sum, List.map_map]
    · rw [itemNesting_le_iff, List.forall_mem_map]
      exact fun v hv => (hlevels v hv).levels
  | .call name arguments trailing => by
    obtain ⟨-, b, vs, c, -, hvs, happly, rfl⟩ := Expression.value_call h
    obtain ⟨-, hfits⟩ := itemValues_extent arguments hvs
    refine fitsIn_apply happly (Nat.le_add_right ..) fun d hd => ?_
    obtain ⟨hnodes, hlevels⟩ := hfits _ hd
    exact ⟨hnodes.trans (Nat.le_add_left ..), hlevels.trans (Nat.le_add_left ..)⟩
termination_by structural e

theorem fieldValues_extent [Library] (fields : List (TokenKind × Expression))
    {before vs : List (String × Constraint)} (h : fieldValues bindings before fields = some vs) :
    fieldNodeCount vs ≤ fieldNodeCount before + fieldNodes fields
      ∧ ∀ n, fieldDepth fields ≤ n → (∀ f ∈ before, f.2.nesting ≤ n) →
        ∀ f ∈ vs, f.2.nesting ≤ n :=
  match fields with
  | [] => by
    cases h
    exact ⟨Nat.le_add_right .., fun n _ hbefore => hbefore⟩
  | (k, e) :: rest => by
    rw [fieldValues] at h
    split at h
    · rename_i key v hkey hv
      obtain ⟨hnodes, hlevels⟩ := value_extent e hv
      obtain ⟨hrestnodes, hrestlevels⟩ := fieldValues_extent rest h
      refine ⟨?_, fun n hn hbefore => ?_⟩
      · have hput := fieldNodeCount_putField key v before
        rw [fieldNodes]
        omega
      · rw [fieldDepth, max_le_iff] at hn
        exact hrestlevels n hn.2
          (forall_putField (P := fun c => c.nesting ≤ n) hbefore (hlevels.trans hn.1))
    · cases h
termination_by structural fields

theorem itemValues_extent [Library] (items : List Expression) {vs : List (Option Constraint)}
    (h : itemValues bindings items = some vs) :
    (vs.map fun v => (v.getD (.constant .null)).nodeCount).sum ≤ itemNodes items
      ∧ ∀ v ∈ vs, (v.getD (.constant .null)).FitsIn (itemNodes items) (itemDepth items) :=
  match items with
  | [] => by
    cases h
    exact ⟨Nat.zero_le _, by simp⟩
  | e :: rest => by
    rw [itemValues] at h
    split at h
    · rename_i v more hv hmore
      cases h
      obtain ⟨hnodes, hlevels⟩ := value_extent e hv
      obtain ⟨hsum, hrest⟩ := itemValues_extent rest hmore
      rw [List.map_cons, List.sum_cons, itemNodes, itemDepth, List.forall_mem_cons]
      refine ⟨Nat.add_le_add hnodes hsum, ⟨?_, ?_⟩, fun u hu => ⟨?_, ?_⟩⟩
      · exact hnodes.trans (Nat.le_add_right ..)
      · exact hlevels.trans (le_max_left ..)
      · exact (hrest u hu).nodes.trans (Nat.le_add_left ..)
      · exact (hrest u hu).levels.trans (le_max_right ..)
    · cases h
termination_by structural items

end

end HttpContract.Constraint
