import HttpContract.Proofs.Constraint.Reread
import HttpContract.Proofs.Script.Weight
import Mathlib.Algebra.Order.BigOperators.Group.List

/-!
# Constraint — how much more is written than was read

What an expression means is written with at most twice as much as there is in the expression, and
at most one level deeper (`value_grows`): a call is written with its options even where none were
given.
-/

namespace HttpContract.Constraint

open Script (Bindings Builtin Expression Measure TokenKind keyOf? putField)
open Script.Expression (fieldValues fieldWeight itemValues itemWeight fieldDepth itemDepth
  fieldDepth_le_iff itemDepth_le_iff fieldWeight_eq_sum itemWeight_eq_sum)

variable {w : Measure} {n : Nat} {c : Constraint}

/-! ## Sums over lists -/

section Sums

variable {α : Type} {as bs : List α} {f : α → Nat}

theorem sum_le_of_sublist (h : as.Sublist bs) : (as.map f).sum ≤ (bs.map f).sum :=
  (h.map f).sum_le_sum fun _ _ => Nat.zero_le _

/-- Members that are named once each are together no more than all of them. -/
theorem sum_le_of_subset (hnodup : as.Nodup) (h : as ⊆ bs) : (as.map f).sum ≤ (bs.map f).sum := by
  obtain ⟨cs, hperm, hsub⟩ := List.subperm_of_subset hnodup h
  exact (hperm.map f).sum_nat.symm.le.trans (sum_le_of_sublist hsub)

end Sums

/-! ## Written trees -/

/-- How much there is in the expression that a tree is written as. -/
def weight (w : Measure) (c : Constraint) : Nat := c.expression.weight w

/-- How deep the expression that a tree is written as is nested. -/
def depth (c : Constraint) : Nat := c.expression.depth

/-- How much there is in written fields. -/
def fieldsWeight (w : Measure) (fields : List (String × Constraint)) : Nat :=
  (fields.map fun f => w.text f.1 + f.2.weight w).sum

theorem fieldsWeight_nil : fieldsWeight w [] = 0 := rfl

theorem fieldsWeight_cons (f : String × Constraint) (fields : List (String × Constraint)) :
    fieldsWeight w (f :: fields) = w.text f.1 + f.2.weight w + fieldsWeight w fields := by
  rw [fieldsWeight, List.map_cons, List.sum_cons]
  rfl

theorem fieldsWeight_append (fs gs : List (String × Constraint)) :
    fieldsWeight w (fs ++ gs) = fieldsWeight w fs + fieldsWeight w gs := by
  rw [fieldsWeight, List.map_append, List.sum_append_nat]
  rfl

/-- Fields that are named once each are together no more than all of them. -/
theorem fieldsWeight_le {fs gs : List (String × Constraint)} (hnodup : fs.Nodup) (h : fs ⊆ gs) :
    fieldsWeight w fs ≤ fieldsWeight w gs := sum_le_of_subset hnodup h

theorem weight_le_of_mem {fields : List (String × Constraint)} {key : String}
    (h : (key, c) ∈ fields) : c.weight w ≤ fieldsWeight w fields := by
  have hle : fieldsWeight w [(key, c)] ≤ fieldsWeight w fields :=
    fieldsWeight_le (List.nodup_singleton _) (by simpa using h)
  simp only [fieldsWeight_cons, fieldsWeight_nil] at hle
  omega

/-- Two fields with different names are together no more than all of them. -/
theorem weight_add_le {fields : List (String × Constraint)} {key key' : String}
    {d : Constraint} (hne : key ≠ key') (hc : (key, c) ∈ fields) (hd : (key', d) ∈ fields) :
    c.weight w + d.weight w ≤ fieldsWeight w fields := by
  have hle : fieldsWeight w [(key, c), (key', d)] ≤ fieldsWeight w fields :=
    fieldsWeight_le (by simp [hne]) (by simp [hc, hd])
  simp only [fieldsWeight_cons, fieldsWeight_nil] at hle
  omega

theorem weight_object (fields : List (String × Constraint)) :
    (object fields).weight w = w.node + fieldsWeight w fields := by
  rw [weight, expression, Expression.weight, fieldWeight_eq_sum, expressionFields_eq_map,
    List.map_map]
  rfl

theorem weight_array (items : List Constraint) :
    (array items).weight w = w.node + (items.map (weight w)).sum := by
  rw [weight, expression, Expression.weight, itemWeight_eq_sum, expressionItems_eq_map,
    List.map_map]
  rfl

theorem node_le_weight (c : Constraint) : w.node ≤ c.weight w := c.expression.node_le_weight

theorem depth_object_le_iff {fields : List (String × Constraint)} :
    (object fields).depth ≤ n + 1 ↔ ∀ f ∈ fields, f.2.depth ≤ n := by
  rw [depth, expression, Expression.depth, Nat.add_comm, Nat.add_le_add_iff_right,
    fieldDepth_le_iff, expressionFields_eq_map]
  simp only [List.forall_mem_map]
  rfl

/-- An object is one level deeper than its fields. -/
theorem depth_object (fields : List (String × Constraint)) :
    ∃ n, (object fields).depth = n + 1 ∧ ∀ f ∈ fields, f.2.depth ≤ n :=
  ⟨_, Nat.add_comm .., depth_object_le_iff.mp (Nat.add_comm ..).le⟩

theorem depth_array_le_iff {items : List Constraint} :
    (array items).depth ≤ n + 1 ↔ ∀ c ∈ items, c.depth ≤ n := by
  rw [depth, expression, Expression.depth, Nat.add_comm, Nat.add_le_add_iff_right,
    itemDepth_le_iff, expressionItems_eq_map]
  simp only [List.forall_mem_map]
  rfl

/-- An array is one level deeper than its items. -/
theorem depth_array (items : List Constraint) :
    ∃ n, (array items).depth = n + 1 ∧ ∀ c ∈ items, c.depth ≤ n :=
  ⟨_, Nat.add_comm .., depth_array_le_iff.mp (Nat.add_comm ..).le⟩

mutual

/-- A tree with a literal is written as the literal is. -/
theorem expression_literal (c : Constraint) {v : Json} (h : c.literal? = some v) :
    c.expression = .ofJson v :=
  match c with
  | constant v => by
    cases h
    rfl
  | object fields => by
    rw [literal?, Option.map_eq_some_iff] at h
    obtain ⟨vs, hvs, rfl⟩ := h
    rw [expression, Expression.ofJson, expressionFields_literal fields hvs]
  | array items => by
    rw [literal?, Option.map_eq_some_iff] at h
    obtain ⟨vs, hvs, rfl⟩ := h
    rw [expression, Expression.ofJson, expressionItems_literal items hvs]
  | matcher _ => by cases h
  | extraction _ => by cases h
  | dual _ _ _ => by cases h
termination_by structural c

theorem expressionFields_literal (fields : List (String × Constraint))
    {vs : List (String × Json)} (h : literalFields? fields = some vs) :
    expressionFields fields = Expression.ofFields vs :=
  match fields with
  | [] => by
    cases h
    rfl
  | (k, c) :: rest => by
    rw [literalFields?] at h
    split at h
    · rename_i hv hmore
      cases h
      rw [expressionFields, Expression.ofFields, expression_literal c hv,
        expressionFields_literal rest hmore]
    · cases h
termination_by structural fields

theorem expressionItems_literal (items : List Constraint) {vs : List Json}
    (h : literalItems? items = some vs) : expressionItems items = Expression.ofItems vs :=
  match items with
  | [] => by
    cases h
    rfl
  | c :: rest => by
    rw [literalItems?] at h
    split at h
    · rename_i hv hmore
      cases h
      rw [expressionItems, Expression.ofItems, expression_literal c hv,
        expressionItems_literal rest hmore]
    · cases h
termination_by structural items

end

theorem expression_ofJson (v : Json) : (ofJson v).expression = .ofJson v :=
  expression_literal _ (literal?_ofJson v)

/-- A tree with a literal is as large as the tree of the literal. -/
theorem literal_size {v : Json} (h : c.literal? = some v) :
    c.weight w = (ofJson v).weight w ∧ c.depth = (ofJson v).depth := by
  rw [weight, weight, depth, depth, expression_literal c h, expression_ofJson]
  exact ⟨rfl, rfl⟩

theorem weight_string (s : String) : (ofJson (.string s)).weight w = w.node + w.text s := rfl

theorem weight_number (m : Json.Number) : (ofJson (.number m)).weight w = w.node := by
  show (Expression.ofNumber m).weight w = w.node
  cases m <;> rw [Expression.ofNumber] <;> split <;> rfl

theorem depth_number (m : Json.Number) : (ofJson (.number m)).depth = 0 := by
  show (Expression.ofNumber m).depth = 0
  cases m <;> rw [Expression.ofNumber] <;> split <;> rfl

theorem weight_matcher (m : Matcher) :
    (matcher m).weight w = w.node + (m.arguments.map fun v => (ofJson v).weight w).sum := by
  rw [weight, expression, Matcher.expression, Expression.weight, itemWeight_eq_sum, List.map_map]
  congr 2
  exact List.map_congr_left fun v _ => by rw [weight, expression_ofJson]; rfl

theorem depth_matcher_le_iff {m : Matcher} :
    (matcher m).depth ≤ n + 1 ↔ ∀ v ∈ m.arguments, (ofJson v).depth ≤ n := by
  rw [depth, expression, Matcher.expression, Expression.depth, Nat.add_comm,
    Nat.add_le_add_iff_right, itemDepth_le_iff]
  simp only [List.forall_mem_map, depth, expression_ofJson]

theorem weight_both (stub test : Option Constraint) :
    (dual .both stub test).weight w
      = 2 * w.node + (stub.elim 0 (weight w) + test.elim 0 (weight w)) := by
  have hstub : w.key (.identifier "stub") = 0 := w.text_short (s := "stub") (by decide)
  have htest : w.key (.identifier "test") = 0 := w.text_short (s := "test") (by decide)
  cases stub <;> cases test <;>
    simp only [weight, expression, expressionBranch?, sideField, Expression.weight, fieldWeight,
      itemWeight, List.nil_append, List.cons_append, hstub, htest, Option.elim_none,
      Option.elim_some] <;> omega

theorem depth_both_le {stub test : Option Constraint} (hstub : ∀ c ∈ stub, c.depth ≤ n)
    (htest : ∀ c ∈ test, c.depth ≤ n) : (dual .both stub test).depth ≤ n + 2 := by
  cases stub <;> cases test <;>
    simp_all [depth, expression, expressionBranch?, sideField, Expression.depth, fieldDepth,
      itemDepth] <;> omega

/-! ## Calls -/

/-- What is made of an argument is not much larger than it. -/
structure FitsFirst (argument : Option Constraint) (c : Constraint) : Prop where
  weight : ∀ w, c.weight w ≤ 2 * w.node + argument.elim 0 (weight w)
  depth : ∀ n, (∀ d ∈ argument, d.depth ≤ n) → c.depth ≤ max 2 (n + 1)

/-- What is made of arguments is not much larger than they are. -/
structure FitsAll (arguments : List (Option Constraint)) (c : Constraint) : Prop where
  weight : ∀ w, c.weight w
    ≤ 2 * w.node + (arguments.map fun a => (a.getD (.constant .null)).weight w).sum
  depth : ∀ n, (∀ a ∈ arguments, ∀ d ∈ a, d.depth ≤ n) → c.depth ≤ max 2 (n + 1)

theorem FitsFirst.fitsAll {arguments : List (Option Constraint)}
    (h : FitsFirst arguments.head?.join c) : FitsAll arguments c := by
  obtain ⟨hweight, hdepth⟩ := h
  cases arguments with
  | nil => exact ⟨hweight, fun n _ => hdepth n (by simp)⟩
  | cons a rest =>
    refine ⟨fun w => (hweight w).trans ?_, fun n hn => hdepth n (hn a (by simp))⟩
    rw [List.map_cons, List.sum_cons]
    cases a with
    | none => exact Nat.add_le_add_left (Nat.zero_le _) _
    | some d => exact Nat.add_le_add_left (Nat.le_add_right ..) _

variable {argument : Option Constraint}

open Script.Builtin (choices firstField? literal_ok make makeDate makeExtraction makeNumber
  makeRegex makeText namedOption numberOption numberOption_ok options someChoices stringArgument
  stringOption stringOption_ok stubKeys testKeys)

/-- A matcher without arguments is small. -/
theorem fits_plain {m : Matcher} (h : m.arguments = []) : FitsFirst argument (.matcher m) where
  weight w := by
    rw [weight_matcher, h, List.map_nil, List.sum_nil]
    omega
  depth n _ := by
    have hdepth : (matcher m).depth ≤ 0 + 1 := depth_matcher_le_iff.mpr (by simp [h])
    omega

/-! ### Texts -/

theorem stringArgument_some {s : String} (h : stringArgument argument = .ok (some s)) :
    ∃ d, argument = some d ∧ d.literal? = some (.string s) := by
  unfold stringArgument at h
  split at h
  · cases h
  · rename_i d
    split at h <;> cases h
    rename_i hliteral
    exact ⟨d, rfl, literal_ok.mp hliteral⟩

/-- A call with a text is no larger than a call with an argument that is the text. -/
theorem fits_text {s : String} (h : stringArgument argument = .ok (some s))
    (hweight : ∀ w, c.weight w = w.node + (w.node + w.text s)) (hdepth : c.depth = 1) :
    FitsFirst argument c := by
  obtain ⟨d, rfl, hliteral⟩ := stringArgument_some h
  refine ⟨fun w => ?_, fun n _ => by omega⟩
  rw [hweight, Option.elim_some, (literal_size hliteral).1, weight_string]
  omega

theorem fits_regex [Library] (h : makeRegex argument = .ok c) : FitsFirst argument c := by
  simp only [makeRegex, bind_ok] at h
  obtain ⟨source, hsource, h⟩ := h
  cases source with
  | none => cases h
  | some source =>
    simp only at h
    split at h
    · rename_i rule hrule
      obtain rfl := pure_ok.mp h
      refine fits_text hsource (fun w => ?_) rfl
      rw [weight_matcher, ← Script.Builtin.source_ofSource? hrule]
      rfl
    · cases h

theorem fits_extraction (h : makeExtraction argument = .ok c) : FitsFirst argument c := by
  simp only [makeExtraction, bind_ok] at h
  obtain ⟨text, htext, h⟩ := h
  cases text with
  | none => cases h
  | some text =>
    simp only at h
    split at h
    · rename_i e he
      obtain rfl := pure_ok.mp h
      refine fits_text htext (fun w => ?_) rfl
      rw [← Script.Builtin.expression_parse? he]
      rfl
    · cases h

/-! ### Options -/

theorem options_cases {fields : List (String × Json)} (h : options argument = .ok fields) :
    fields = [] ∨ ∃ d, argument = some d ∧ d.literal? = some (.object fields) := by
  unfold options at h
  split at h
  · cases h
    exact .inl rfl
  · rename_i d
    split at h
    · cases h
    · cases h
      exact .inl rfl
    · rename_i hliteral
      cases h
      exact .inr ⟨d, rfl, literal_ok.mp hliteral⟩
    · cases h

/-- How much there is in the fields of a value. -/
def jsonWeight (w : Measure) (fields : List (String × Json)) : Nat :=
  (fields.map fun f => w.text f.1 + (ofJson f.2).weight w).sum

theorem weight_jsonObject (fields : List (String × Json)) :
    (ofJson (.object fields)).weight w = w.node + jsonWeight w fields := by
  rw [ofJson, weight_object, fieldsWeight, ofFields_eq_map, List.map_map]
  rfl

/-- A call with some of the options that are given, each once, is not much larger than a call with
them. -/
theorem fits_options {m : Matcher} {fields written : List (String × Json)}
    (h : options argument = .ok fields) (hm : m.arguments = [.object written])
    (hnodup : (written.map (·.1)).Nodup) (hsub : written ⊆ fields)
    (hsingle : ∀ f ∈ written, (ofJson f.2).depth = 0) : FitsFirst argument (.matcher m) := by
  have hle : ∀ w, jsonWeight w written ≤ jsonWeight w fields := fun w =>
    sum_le_of_subset (List.Nodup.of_map _ hnodup) hsub
  refine ⟨fun w => ?_, fun n _ => ?_⟩
  · have hwritten := hle w
    rw [weight_matcher, hm, List.map_singleton, List.sum_singleton, weight_jsonObject]
    rcases options_cases h with rfl | ⟨d, rfl, hliteral⟩
    · have hnone : jsonWeight w [] = 0 := rfl
      omega
    · rw [Option.elim_some, (literal_size hliteral).1, weight_jsonObject]
      omega
  · have hobject : (ofJson (.object written)).depth ≤ 0 + 1 := by
      rw [ofJson, depth_object_le_iff, ofFields_eq_map]
      simp only [List.forall_mem_map]
      exact fun f hf => (hsingle f hf).le
    have hcall : (matcher m).depth ≤ 1 + 1 := by
      rw [depth_matcher_le_iff, hm]
      simpa using hobject
    omega

theorem mem_of_stringOption {fields : List (String × Json)} {key : String} {text : Option String}
    (h : stringOption fields key = .ok text) : DateRule.option key text ⊆ fields := by
  intro f hf
  cases text with
  | none => cases hf
  | some s =>
    obtain rfl := List.mem_singleton.mp hf
    rcases stringOption_ok.mp h with h | ⟨h, -⟩
    · exact mem_of_lookup h
    · cases h

theorem mem_of_numberOption {fields : List (String × Json)} {key : String}
    {m : Option Json.Number} (h : numberOption fields key = .ok m) :
    Bounds.field key m ⊆ fields := by
  intro f hf
  cases m with
  | none => cases hf
  | some m =>
    obtain rfl := List.mem_singleton.mp hf
    rcases numberOption_ok.mp h with h | ⟨h, -⟩
    · exact mem_of_lookup h
    · cases h

/-- An option that is one of some names is given as its name. -/
theorem stringOption_of_named {α : Type} {ofName? : String → Option α} {name : α → String}
    (hname : ∀ s x, ofName? s = some x → name x = s) {fields : List (String × Json)}
    {key : String} {x : Option α} (h : namedOption ofName? fields key = .ok x) :
    stringOption fields key = .ok (x.map name) := by
  simp only [namedOption, bind_ok] at h
  obtain ⟨text, htext, h⟩ := h
  cases text with
  | none =>
    obtain rfl := pure_ok.mp h
    exact htext
  | some s =>
    simp only at h
    split at h
    · rename_i x hx
      obtain rfl := pure_ok.mp h
      rw [htext, Option.map_some, hname s x hx]
    · cases h

theorem keys_option (key : String) (text : Option String) :
    ((DateRule.option key text).map (·.1)).Sublist [key] := by
  cases text with
  | none => exact List.nil_sublist _
  | some s => exact List.Sublist.refl _

theorem keys_field (key : String) (m : Option Json.Number) :
    ((Bounds.field key m).map (·.1)).Sublist [key] := by
  cases m with
  | none => exact List.nil_sublist _
  | some m => exact List.Sublist.refl _

theorem single_option {key : String} {text : Option String} :
    ∀ f ∈ DateRule.option key text, (ofJson f.2).depth = 0 := by
  intro f hf
  cases text with
  | none => cases hf
  | some s =>
    obtain rfl := List.mem_singleton.mp hf
    rfl

theorem single_field {key : String} {m : Option Json.Number} :
    ∀ f ∈ Bounds.field key m, (ofJson f.2).depth = 0 := by
  intro f hf
  cases m with
  | none => cases hf
  | some m =>
    obtain rfl := List.mem_singleton.mp hf
    exact depth_number m

theorem fits_number {kind : NumberKind} (h : makeNumber kind argument = .ok c) :
    FitsFirst argument c := by
  simp only [makeNumber, bind_ok, pure_ok] at h
  obtain ⟨fields, hoptions, b, hbounds, rfl⟩ := h
  obtain ⟨h1, h2, h3, h4⟩ := Script.Builtin.bounds_ok.mp hbounds
  refine fits_options (m := .number kind b) hoptions rfl ?_ ?_ ?_
  · have hkeys := (((keys_field "gt" b.above).append (keys_field "gte" b.atLeast)).append
      (keys_field "lt" b.below)).append (keys_field "lte" b.atMost)
    simp only [List.map_append]
    exact List.Nodup.sublist hkeys (by decide)
  · simp only [List.append_subset]
    exact ⟨⟨⟨mem_of_numberOption h1, mem_of_numberOption h2⟩, mem_of_numberOption h3⟩,
      mem_of_numberOption h4⟩
  · intro f hf
    simp only [List.mem_append] at hf
    rcases hf with ((hf | hf) | hf) | hf <;> exact single_field f hf

theorem periodName_ofName? (s : String) (p : Period) (h : Period.ofName? s = some p) :
    p.name = s := by
  unfold Period.ofName? at h
  split at h <;> cases h <;> rfl

theorem fits_date (h : makeDate argument = .ok c) : FitsFirst argument c := by
  simp only [makeDate, bind_ok] at h
  obtain ⟨fields, hoptions, period, h2, format, h1, earliest, h3, latest, h4, h⟩ := h
  split at h
  · rename_i rule hrule
    obtain rfl := pure_ok.mp h
    obtain ⟨rfl, rfl, rfl, rfl⟩ := Script.Builtin.ofOptions_ok hrule
    have h2 := stringOption_of_named periodName_ofName? h2
    refine fits_options (m := .date rule) hoptions rfl ?_ ?_ ?_
    · have hkeys := (((keys_option "format" (rule.format.map (·.text))).append
        (keys_option "type" (rule.period.map Period.name))).append
        (keys_option "from" (rule.earliest.map (·.text)))).append
        (keys_option "to" (rule.latest.map (·.text)))
      simp only [List.map_append]
      exact List.Nodup.sublist hkeys (by decide)
    · simp only [List.append_subset]
      exact ⟨⟨⟨mem_of_stringOption h1, mem_of_stringOption h2⟩, mem_of_stringOption h3⟩,
        mem_of_stringOption h4⟩
    · intro f hf
      simp only [List.mem_append] at hf
      rcases hf with ((hf | hf) | hf) | hf <;> exact single_option f hf
  · cases h

theorem textName_ofName? (s : String) (k : TextKind) (h : TextKind.ofName? s = some k) :
    k.name = s := by
  unfold TextKind.ofName? at h
  split at h <;> cases h <;> rfl

theorem fits_filler (h : makeText argument = .ok c) : FitsFirst argument c := by
  simp only [makeText, bind_ok, pure_ok] at h
  obtain ⟨fields, hoptions, kind, hkind, rfl⟩ := h
  cases kind with
  | none => exact fits_plain rfl
  | some kind =>
    have hsub := mem_of_stringOption (stringOption_of_named textName_ofName? hkind)
    exact fits_options (m := .text (some kind)) hoptions rfl (by simp) hsub
      (@single_option "type" (some kind.name))

/-! ### Sides -/

theorem mem_of_firstField {fields : List (String × Constraint)} {keys : List String}
    (h : firstField? fields keys = some c) : ∃ key ∈ keys, (key, c) ∈ fields := by
  obtain ⟨key, hkey, hlookup⟩ := List.exists_of_findSome?_eq_some h
  exact ⟨key, hkey, mem_of_lookup hlookup⟩

/-- The two sides of an object are different fields of it. -/
theorem sides_le_sum (f : Constraint → Nat) (fields : List (String × Constraint)) :
    (firstField? fields stubKeys).elim 0 f + (firstField? fields testKeys).elim 0 f
      ≤ (fields.map fun field => f field.2).sum := by
  have hdisjoint : ∀ key ∈ stubKeys, key ∉ testKeys := by decide
  have hle : ∀ chosen : List (String × Constraint), chosen.Nodup → chosen ⊆ fields →
      (chosen.map fun field => f field.2).sum ≤ (fields.map fun field => f field.2).sum :=
    fun _ => sum_le_of_subset
  cases hstub : firstField? fields stubKeys with
  | none =>
    cases htest : firstField? fields testKeys with
    | none => exact Nat.zero_le _
    | some d =>
      obtain ⟨key, -, hd⟩ := mem_of_firstField htest
      simpa using hle [(key, d)] (List.nodup_singleton _) (by simpa using hd)
  | some c =>
    obtain ⟨key, hkey, hc⟩ := mem_of_firstField hstub
    cases htest : firstField? fields testKeys with
    | none => simpa using hle [(key, c)] (List.nodup_singleton _) (by simpa using hc)
    | some d =>
      obtain ⟨key', hkey', hd⟩ := mem_of_firstField htest
      have hne : key ≠ key' := by
        rintro rfl
        exact hdisjoint key hkey hkey'
      simpa using hle [(key, c), (key', d)] (by simp [hne]) (by simp [hc, hd])

theorem sides_le (fields : List (String × Constraint)) :
    (firstField? fields stubKeys).elim 0 (weight w)
        + (firstField? fields testKeys).elim 0 (weight w) ≤ fieldsWeight w fields :=
  (sides_le_sum (weight w) fields).trans
    (List.sum_le_sum fun _ _ => Nat.le_add_left ..)

/-- What holds of all fields holds of a side. -/
theorem forall_firstField {P : Constraint → Prop} {fields : List (String × Constraint)}
    {keys : List String} (h : ∀ f ∈ fields, P f.2) : ∀ c ∈ firstField? fields keys, P c := by
  intro c hc
  obtain ⟨key, -, hmem⟩ := mem_of_firstField hc
  exact h _ hmem

/-- A side, or null in its place, is no larger than the side and one expression. -/
theorem weight_branch_le (branch : Option Constraint) :
    ((expressionBranch? branch).getD (.word "null")).weight w
      ≤ w.node + branch.elim 0 (weight w) := by
  cases branch with
  | none => exact le_rfl
  | some c => exact Nat.le_add_left ..

theorem depth_branch_le {branch : Option Constraint} (h : ∀ c ∈ branch, c.depth ≤ n) :
    ((expressionBranch? branch).getD (.word "null")).depth ≤ n := by
  cases branch with
  | none => exact Nat.zero_le _
  | some c => exact h c rfl

theorem fits_dual {s : Sidedness} (h : Script.Builtin.dual s argument = .ok c) :
    FitsFirst argument c := by
  unfold Script.Builtin.dual at h
  split at h
  · rename_i fields
    cases h
    obtain ⟨m, hm, hfields⟩ := depth_object fields
    refine ⟨fun w => ?_, fun n hn => ?_⟩
    · have hsides := sides_le (w := w) fields
      have hstub := weight_branch_le (w := w) (firstField? fields stubKeys)
      have htest := weight_branch_le (w := w) (firstField? fields testKeys)
      rw [Option.elim_some, weight_object]
      cases s with
      | both =>
        rw [weight_both]
        omega
      | stubOnly =>
        rw [weight, expression]
        omega
      | testOnly =>
        rw [weight, expression]
        omega
    · have hobject := hn (object fields) rfl
      have hstub : ∀ c ∈ firstField? fields stubKeys, c.depth ≤ m := forall_firstField hfields
      have htest : ∀ c ∈ firstField? fields testKeys, c.depth ≤ m := forall_firstField hfields
      cases s with
      | both => exact (depth_both_le hstub htest).trans (by omega)
      | stubOnly => exact (depth_branch_le hstub).trans (by omega)
      | testOnly => exact (depth_branch_le htest).trans (by omega)
  · cases h

/-! ### Choices -/

/-- Choices are as large as the arguments, `undefined` counting as null. -/
theorem choices_size {arguments : List (Option Constraint)} {vs : List Json}
    (h : choices arguments = .ok vs) :
    (vs.map fun v => (ofJson v).weight w)
        = arguments.map (fun a => (a.getD (.constant .null)).weight w)
      ∧ ((∀ a ∈ arguments, ∀ d ∈ a, d.depth ≤ n) → ∀ v ∈ vs, (ofJson v).depth ≤ n) := by
  induction arguments generalizing vs with
  | nil =>
    cases h
    exact ⟨rfl, by simp⟩
  | cons a rest ih =>
    obtain ⟨v, more, hsize, hmore, rfl⟩ : ∃ v more, ((ofJson v).weight w
        = (a.getD (.constant .null)).weight w ∧ (ofJson v).depth = (a.getD (.constant .null)).depth)
        ∧ choices rest = .ok more ∧ v :: more = vs := by
      cases a with
      | none =>
        simp only [choices, bind_ok, pure_ok] at h
        obtain ⟨v, rfl, more, hmore, hvs⟩ := h
        exact ⟨_, more, ⟨rfl, rfl⟩, hmore, hvs⟩
      | some d =>
        simp only [choices, bind_ok, pure_ok] at h
        obtain ⟨v, hv, more, hmore, hvs⟩ := h
        obtain ⟨hweight, hdepth⟩ := literal_size (w := w) (literal_ok.mp hv)
        exact ⟨v, more, ⟨hweight.symm, hdepth.symm⟩, hmore, hvs⟩
    obtain ⟨hweight, hdepth⟩ := ih hmore
    refine ⟨by rw [List.map_cons, List.map_cons, hweight, hsize.1], fun hn => ?_⟩
    rw [List.forall_mem_cons] at hn
    refine List.forall_mem_cons.mpr ⟨?_, hdepth hn.2⟩
    rw [hsize.2]
    cases a with
    | none => exact Nat.zero_le _
    | some d => exact hn.1 d rfl

theorem fits_choices {m : List Json → Matcher} (hm : ∀ vs, (m vs).arguments = vs)
    {arguments : List (Option Constraint)}
    (h : (someChoices arguments).map (fun vs => .matcher (m vs)) = .ok c) :
    FitsAll arguments c := by
  obtain ⟨vs, hvs, rfl⟩ := map_ok.mp h
  have hsize := fun w n => choices_size (w := w) (n := n) (Script.Builtin.someChoices_ok.mp hvs).1
  refine ⟨fun w => ?_, fun n hn => ?_⟩
  · rw [weight_matcher, hm, (hsize w 0).1]
    omega
  · have hdepth : (matcher (m vs)).depth ≤ n + 1 :=
      depth_matcher_le_iff.mpr (by rw [hm]; exact (hsize ⟨0, 0⟩ n).2 hn)
    omega

/-- What a call makes of its arguments is not much larger than they are. -/
theorem fits_make [Library] {b : Builtin} {arguments : List (Option Constraint)}
    (h : b.make arguments = .ok c) : FitsAll arguments c := by
  cases b with
  | regex => exact (fits_regex h).fitsAll
  | integer => exact (fits_number h).fitsAll
  | float => exact (fits_number h).fitsAll
  | date => exact (fits_date h).fitsAll
  | text => exact (fits_filler h).fitsAll
  | name | email | phone | address | uuid4 =>
    cases h
    exact (fits_plain rfl).fitsAll
  | anyOf => exact fits_choices (fun _ => rfl) h
  | notAnyOf => exact fits_choices (fun _ => rfl) h
  | jsonpath => exact (fits_extraction h).fitsAll
  | value => exact (fits_dual h).fitsAll
  | stubValue => exact (fits_dual h).fitsAll
  | testValue => exact (fits_dual h).fitsAll

/-! ## Expressions -/

/-- What an expression means is written with at most twice as much, and at most one level deeper. -/
structure Grows (e : Expression) (c : Constraint) : Prop where
  weight : ∀ w, c.weight w ≤ 2 * e.weight w
  depth : c.depth ≤ e.depth + 1

theorem fieldsWeight_putField (key : String) (value : Option Constraint)
    (fields : List (String × Constraint)) : fieldsWeight w (putField key value fields)
      ≤ fieldsWeight w fields + (w.text key + (value.getD (.constant .null)).weight w) := by
  have hothers : fieldsWeight w (fields.filter fun f => f.1 ≠ key) ≤ fieldsWeight w fields :=
    sum_le_of_sublist List.filter_sublist
  cases value with
  | none => exact hothers.trans (Nat.le_add_right ..)
  | some c =>
    have hput : putField key (some c) fields = fields.filter (fun f => f.1 ≠ key) ++ [(key, c)] :=
      rfl
    rw [hput, fieldsWeight_append]
    exact Nat.add_le_add_right hothers _

theorem forall_putField {P : Constraint → Prop} {key : String} {value : Option Constraint}
    {fields : List (String × Constraint)} (hfields : ∀ f ∈ fields, P f.2)
    (hvalue : P (value.getD (.constant .null))) : ∀ f ∈ putField key value fields, P f.2 := by
  have hothers : ∀ f ∈ fields.filter (fun f => f.1 ≠ key), P f.2 := fun f hf =>
    hfields f (List.mem_of_mem_filter hf)
  cases value with
  | none => exact hothers
  | some c =>
    intro f hf
    rcases List.mem_append.mp hf with hf | hf
    · exact hothers f hf
    · obtain rfl := List.mem_singleton.mp hf
      exact hvalue

variable {bindings : Bindings}

mutual

/-- What an expression means is not much larger than the expression. -/
theorem value_grows [Library] (e : Expression) {v : Option Constraint}
    (h : e.value bindings = some v) :
    Grows e (v.getD (.constant .null)) :=
  match e with
  | .word name => by
    simp only [Expression.value, Option.ite_none_right_eq_some] at h
    have hword := h.2
    unfold Script.wordValue? at hword
    have hsingle : ∀ v : Json, (∀ w, (constant v).weight w = w.node) → (constant v).depth = 0 →
        Grows (.word name) (.constant v) := fun v hweight hdepth =>
      ⟨fun w => by rw [hweight, Expression.weight]; omega, by rw [hdepth]; exact Nat.zero_le _⟩
    split at hword <;> cases hword
    · exact hsingle _ (fun _ => rfl) rfl
    · exact hsingle _ (fun _ => rfl) rfl
    · exact hsingle _ (fun _ => rfl) rfl
    · exact hsingle _ (fun _ => rfl) rfl
  | .string x => by
    cases h
    refine ⟨fun w => ?_, Nat.zero_le _⟩
    show w.node + w.text x ≤ 2 * (w.node + w.text x)
    omega
  | .number m => by
    cases h
    refine ⟨fun w => ?_, (depth_number _).le.trans (Nat.zero_le _)⟩
    exact (weight_number _).le.trans (by rw [Expression.weight]; omega)
  | .signed negative m => by
    cases h
    refine ⟨fun w => ?_, (depth_number _).le.trans (Nat.zero_le _)⟩
    exact (weight_number _).le.trans (by rw [Expression.weight]; omega)
  | .object fields trailing => by
    simp only [Expression.value, Option.map_eq_some_iff] at h
    obtain ⟨vs, hvs, rfl⟩ := h
    refine ⟨fun w => ?_, ?_⟩
    · have hfields := (fieldValues_grows fields hvs).1 w
      rw [fieldsWeight_nil] at hfields
      rw [Option.getD_some, weight_object, Expression.weight]
      omega
    · rw [Option.getD_some, depth_object_le_iff, Expression.depth, Nat.add_comm]
      exact (fieldValues_grows fields hvs).2 _ le_rfl (by simp)
  | .array items trailing => by
    simp only [Expression.value, Option.map_eq_some_iff] at h
    obtain ⟨vs, hvs, rfl⟩ := h
    refine ⟨fun w => ?_, ?_⟩
    · have hitems := (itemValues_grows items hvs).1 w
      rw [Option.getD_some, weight_array, List.map_map, Expression.weight]
      show w.node + (vs.map fun v => (v.getD (.constant .null)).weight w).sum ≤ _
      omega
    · rw [Option.getD_some, depth_array_le_iff, Expression.depth, Nat.add_comm]
      simp only [List.forall_mem_map]
      exact (itemValues_grows items hvs).2
  | .call name arguments trailing => by
    obtain ⟨-, b, vs, c, -, hvs, happly, rfl⟩ := Expression.value_call h
    obtain ⟨hweight, hdepth⟩ := fits_make (Script.Builtin.make_of_apply happly)
    refine ⟨fun w => ?_, ?_⟩
    · have hitems := (itemValues_grows arguments hvs).1 w
      have hcall := hweight w
      rw [Option.getD_some, Expression.weight]
      omega
    · have hcall := hdepth (itemDepth arguments + 1) fun a ha d hd => by
        obtain rfl := Option.mem_def.mp hd
        exact (itemValues_grows arguments hvs).2 (some d) ha
      rw [Option.getD_some, Expression.depth]
      omega
termination_by structural e

theorem fieldValues_grows [Library] (fields : List (TokenKind × Expression))
    {before vs : List (String × Constraint)} (h : fieldValues bindings before fields = some vs) :
    (∀ w, fieldsWeight w vs ≤ fieldsWeight w before + 2 * fieldWeight w fields)
      ∧ ∀ n, fieldDepth fields ≤ n → (∀ f ∈ before, f.2.depth ≤ n + 1) →
        ∀ f ∈ vs, f.2.depth ≤ n + 1 :=
  match fields with
  | [] => by
    cases h
    exact ⟨fun w => Nat.le_add_right .., fun n _ hbefore => hbefore⟩
  | (k, e) :: rest => by
    rw [fieldValues] at h
    split at h
    · rename_i key v hkey hv
      obtain ⟨hweight, hdepth⟩ := value_grows e hv
      obtain ⟨hrestweight, hrestdepth⟩ := fieldValues_grows rest h
      refine ⟨fun w => ?_, fun n hn hbefore => ?_⟩
      · have hput := fieldsWeight_putField (w := w) key v before
        have hkeyweight : w.key k = w.text key := by rw [Measure.key, hkey, Option.elim_some]
        have hvalue := hweight w
        have hrest := hrestweight w
        rw [fieldWeight, hkeyweight]
        omega
      · rw [fieldDepth, max_le_iff] at hn
        exact hrestdepth n hn.2 (forall_putField (P := fun c => c.depth ≤ n + 1) hbefore
          (hdepth.trans (by omega)))
    · cases h
termination_by structural fields

theorem itemValues_grows [Library] (items : List Expression) {vs : List (Option Constraint)}
    (h : itemValues bindings items = some vs) :
    (∀ w, (vs.map fun v => (v.getD (.constant .null)).weight w).sum ≤ 2 * itemWeight w items)
      ∧ ∀ v ∈ vs, (v.getD (.constant .null)).depth ≤ itemDepth items + 1 :=
  match items with
  | [] => by
    cases h
    exact ⟨fun w => Nat.zero_le _, by simp⟩
  | e :: rest => by
    rw [itemValues] at h
    split at h
    · rename_i v more hv hmore
      cases h
      obtain ⟨hweight, hdepth⟩ := value_grows e hv
      obtain ⟨hrestweight, hrestdepth⟩ := itemValues_grows rest hmore
      refine ⟨fun w => ?_, ?_⟩
      · have hvalue := hweight w
        have hrest := hrestweight w
        rw [List.map_cons, List.sum_cons, itemWeight]
        omega
      · rw [itemDepth, List.forall_mem_cons]
        exact ⟨hdepth.trans (by omega), fun u hu => (hrestdepth u hu).trans (by omega)⟩
    · cases h
termination_by structural items

end

end HttpContract.Constraint
