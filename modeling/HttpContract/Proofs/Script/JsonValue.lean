import HttpContract.Proofs.Binary64.Whole
import HttpContract.Proofs.Json.Agreement
import HttpContract.Proofs.Json.Grammar

/-!
# Script — what texts of JSON mean

`Phrase.expression` is the expression that a text of JSON is in a script. If the text stands for a
value, the expression means a tree whose literal agrees with the value (`value_expression`). It need
not be the value: whole numbers from `2 ^ 63` upwards are doubles, a negative zero is a zero, and a
field that stands in an object again goes to the end.
-/

namespace HttpContract

open Json (Letter Numeral Phrase Key WordInt setField)
open Script (Bindings Expression TokenKind negated)
open Script.Expression (keys_putField lookup_putField)

/-! ## Literals -/

/-- The literal of a tree agrees with a value. -/
def Constraint.HasLiteral (c : Constraint) (v : Json) : Prop :=
  ∃ w, c.literal? = some w ∧ v.agrees w = true

namespace Constraint

theorem HasLiteral.array {vs : List Json} {cs : List Constraint}
    (h : List.Forall₂ (fun v c => c.HasLiteral v) vs cs) :
    (Constraint.array cs).HasLiteral (.array vs) := by
  have hitems : ∃ ws, literalItems? cs = some ws
      ∧ List.Forall₂ (fun v w => v.agrees w = true) vs ws := by
    induction h with
    | nil => exact ⟨[], rfl, .nil⟩
    | cons hc _ ih =>
      obtain ⟨w, hw, hv⟩ := hc
      obtain ⟨ws, hws, hvs⟩ := ih
      exact ⟨w :: ws, by simp only [literalItems?, hw, hws], .cons hv hvs⟩
  obtain ⟨ws, hws, hvs⟩ := hitems
  exact ⟨.array ws, by rw [literal?, hws, Option.map_some], Json.agreesItems_iff.mpr hvs⟩

/-- The literals of fields are found under their keys. -/
theorem exists_literalFields? {cs : List (String × Constraint)}
    (h : ∀ f ∈ cs, ∃ w, f.2.literal? = some w) :
    ∃ ws, literalFields? cs = some ws ∧ ws.map (·.1) = cs.map (·.1)
      ∧ ∀ key, ws.lookup key = (cs.lookup key).bind literal? := by
  induction cs with
  | nil => exact ⟨[], rfl, rfl, fun _ => rfl⟩
  | cons f rest ih =>
    obtain ⟨k, c⟩ := f
    obtain ⟨w, hw⟩ := h (k, c) (by simp)
    obtain ⟨ws, hws, hkeys, hlookup⟩ := ih fun f hf => h f (by simp [hf])
    simp only at hw
    refine ⟨(k, w) :: ws, by simp only [literalFields?, hw, hws], by simp [hkeys], fun key => ?_⟩
    rw [List.lookup_cons, List.lookup_cons, hlookup]
    cases key == k with
    | true => exact hw.symm
    | false => rfl

/-- Fields of a value and fields of a tree: no key stands twice, and under every key there is a tree
with the value as literal, or there is nothing in both. -/
structure FieldsAlike (fs : List (String × Json)) (cs : List (String × Constraint)) : Prop where
  values : (fs.map (·.1)).Nodup
  trees : (cs.map (·.1)).Nodup
  found : ∀ key, Option.Rel (fun v (c : Constraint) => c.HasLiteral v) (fs.lookup key)
    (cs.lookup key)

theorem FieldsAlike.nil : FieldsAlike [] [] := ⟨.nil, .nil, fun _ => .none⟩

/-- Fields stay alike if a field is set on one side and put on the other. -/
theorem FieldsAlike.put {fs : List (String × Json)} {cs : List (String × Constraint)}
    (h : FieldsAlike fs cs) (key : String) {v : Json} {c : Constraint} (hc : c.HasLiteral v) :
    FieldsAlike (setField key v fs) (Script.putField key (some c) cs) where
  values := Json.nodup_keys_setField key v h.values
  trees := keys_putField key (some c) h.trees
  found := by
    intro other
    rw [Json.lookup_setField, lookup_putField]
    split
    · exact .some hc
    · exact h.found other

theorem HasLiteral.object {fs : List (String × Json)} {cs : List (String × Constraint)}
    (h : FieldsAlike fs cs) : (Constraint.object cs).HasLiteral (.object fs) := by
  have hliterals : ∀ f ∈ cs, ∃ w, f.2.literal? = some w := by
    intro f hf
    have hrel := h.found f.1
    rw [lookup_of_nodup h.trees hf] at hrel
    generalize fs.lookup f.1 = v at hrel
    cases hrel with
    | some hc =>
      obtain ⟨w, hw, -⟩ := hc
      exact ⟨w, hw⟩
  obtain ⟨ws, hws, hkeys, hlookup⟩ := exists_literalFields? hliterals
  refine ⟨.object ws, by rw [literal?, hws, Option.map_some], ?_⟩
  refine (Json.agrees_object_iff h.values (hkeys ▸ h.trees)).mpr fun key => ?_
  have hrel := h.found key
  rw [hlookup]
  generalize fs.lookup key = v, cs.lookup key = c at hrel ⊢
  cases hrel with
  | none => exact .none
  | some hc =>
    obtain ⟨w, hw, hv⟩ := hc
    rw [Option.bind_some, hw]
    exact .some hv

end Constraint

/-! ## Numbers -/

namespace Json.Numeral

/-- The number that the characters behind the sign are in a script. -/
def unsigned (u : Numeral) : Number :=
  (Script.number? u.body).getD (.integer (WordInt.ofInt 0))

/-- The expression of a number: its sign is a token of its own. -/
def expression (u : Numeral) : Expression :=
  if u.written.negative then .signed true u.unsigned else .number u.unsigned

theorem mark_cases (u : Numeral) :
    (if u.capital then 'E' else 'e') = 'e' ∨ (if u.capital then 'E' else 'e') = 'E' := by
  cases u.capital
  · exact .inl rfl
  · exact .inr rfl

theorem decimal_whole {u : Numeral} (hfraction : u.written.fraction = none)
    (hexponent : u.written.exponent = none) :
    u.written.decimal = ⟨Number.digitsValue u.written.whole, 0⟩ := by
  simp [Number.Written.decimal, Number.Written.stated, hfraction, hexponent]

/-- A number that stands for a value is read as a double, and the double agrees with the value. -/
theorem Denotes.exists_double {u : Numeral} {n : Number} (h : u.Denotes n) :
    ∃ x, Binary64.ofDecimal? u.written.negative u.written.decimal = some x
      ∧ n.same (.float x) = true := by
  cases h with
  | nearest hx => exact ⟨_, hx, beq_self_eq_true _⟩
  | @whole n hfraction hexponent hn =>
    -- a whole number fits a word, so the double nearest to it is finite
    have hword : Number.digitsValue u.written.whole < 2 ^ 64 := by
      have hlower := n.lower
      have hupper := n.upper
      split at hn <;> omega
    obtain ⟨x, hx⟩ := Binary64.exists_ofDecimal?_word u.written.negative hword
    refine ⟨x, decimal_whole hfraction hexponent ▸ hx, ?_⟩
    show (Binary64.ofInt n.val).same x = true
    rw [Binary64.same, Binary64.units_ofDecimal? hx, hn]
    exact beq_self_eq_true _

/-- The sign of a whole number that fits a signed word. -/
theorem exists_signed {m : Nat} (h : m < 9223372036854775808) (negative : Bool) :
    ∃ z : WordInt, (if negative then negated (.integer (WordInt.ofInt m))
        else .integer (WordInt.ofInt m)) = .integer z
      ∧ z.val = if negative then -(m : Int) else m := by
  cases negative
  · refine ⟨_, if_neg Bool.false_ne_true, ?_⟩
    rw [if_neg Bool.false_ne_true]
    simp only [WordInt.ofInt]
    omega
  · refine ⟨_, if_pos rfl, ?_⟩
    rw [if_pos rfl]
    simp only [WordInt.ofInt]
    omega

/-- Digits only, if they fit a signed word, are a whole number in a script. -/
theorem exists_integer {u : Numeral} {n : Number} (h : u.Denotes n)
    (hsmall : (Script.isDigits u.body
      && decide (Script.digitsValue u.body < 9223372036854775808)) = true) :
    ∃ k, Script.number? u.body = some k
      ∧ n.same (if u.written.negative then negated k else k) = true := by
  have hunmarked : u.written.fraction = none ∧ u.written.exponent = none := by
    rw [← Option.not_isSome_iff_eq_none, ← Option.not_isSome_iff_eq_none, ← not_or]
    intro hmarked
    have hdigits := Script.isDigits_bodyWith u.plus u.mark_cases hmarked
    rw [body, hdigits] at hsmall
    cases hsmall
  obtain ⟨hfraction, hexponent⟩ := hunmarked
  have hbody : u.body = u.written.whole := by
    simp [body, Number.Written.bodyWith, hfraction, hexponent]
  have hvalue : Number.digitsValue u.written.whole < 9223372036854775808 := by
    rw [← Script.digitsValue_eq, ← hbody]
    simpa using (Bool.and_eq_true_iff.mp hsmall).2
  obtain ⟨z, hz, hval⟩ := exists_signed hvalue u.written.negative
  refine ⟨_, if_pos hsmall, ?_⟩
  rw [hbody, Script.digitsValue_eq, hz]
  cases h with
  | @whole n _ _ hn =>
    show (n.val == z.val) = true
    rw [hn, hval]
    exact beq_self_eq_true _
  | @nearest x hx =>
    rw [decimal_whole hfraction hexponent] at hx
    show x.same (Binary64.ofInt z.val) = true
    rw [Binary64.same, Binary64.units_ofDecimal? hx, hval]
    exact beq_self_eq_true _

/-- All other numbers are doubles in a script. -/
theorem exists_float {u : Numeral} {n : Number} (h : u.Denotes n)
    (hother : ¬(Script.isDigits u.body
      && decide (Script.digitsValue u.body < 9223372036854775808)) = true) :
    ∃ k, Script.number? u.body = some k
      ∧ n.same (if u.written.negative then negated k else k) = true := by
  obtain ⟨x, hx, hsame⟩ := h.exists_double
  rw [Binary64.ofDecimal?_sign, Option.map_eq_some_iff] at hx
  obtain ⟨y, hy, rfl⟩ := hx
  have hpositive : y.negative = false := by
    have hsign := Binary64.ofDecimal?_sign false u.written.decimal
    rw [hy, Option.map_some, Option.some.injEq] at hsign
    rw [hsign]
  have hdecimal : Script.decimal? u.body = some u.written.decimal :=
    Script.decimal?_bodyWith u.plain.digital u.plus u.mark_cases
  have hsigned : (if u.written.negative then negated (.float y) else .float y)
      = Number.float { y with negative := u.written.negative } := by
    cases u.written.negative
    · rw [if_neg Bool.false_ne_true, ← hpositive]
    · rw [if_pos rfl, negated, Binary64.negate, hpositive]
      rfl
  refine ⟨.float y, ?_, hsigned ▸ hsame⟩
  rw [Script.number?, if_neg hother, hdecimal, Option.bind_some, hy, Option.map_some]

/-- What a number is in a script agrees with what it stands for. -/
theorem Denotes.exists_number? {u : Numeral} {n : Number} (h : u.Denotes n) :
    ∃ k, Script.number? u.body = some k
      ∧ n.same (if u.written.negative then negated k else k) = true := by
  by_cases hsmall : (Script.isDigits u.body
      && decide (Script.digitsValue u.body < 9223372036854775808)) = true
  · exact exists_integer h hsmall
  · exact exists_float h hsmall

theorem number?_body {u : Numeral} {n : Number} (h : u.Denotes n) :
    Script.number? u.body = some u.unsigned := by
  obtain ⟨k, hk, -⟩ := h.exists_number?
  rw [unsigned, hk, Option.getD_some]

theorem value_expression [Library] (bindings : Bindings) {u : Numeral} {n : Number}
    (h : u.Denotes n) :
    ∃ c, u.expression.value bindings = some (some c) ∧ c.HasLiteral (.number n) := by
  obtain ⟨k, hk, hsame⟩ := h.exists_number?
  refine ⟨.constant (.number (if u.written.negative then negated k else k)), ?_, _, rfl, hsame⟩
  rw [expression, unsigned, hk, Option.getD_some]
  cases u.written.negative <;> rfl

end Json.Numeral

/-! ## Texts -/

namespace Json

/-- The string that letters spell. -/
def Letter.text (ls : List Letter) : String := String.ofList (ls.filterMap value?)

theorem Letter.text_of_spell {ls : List Letter} {s : String} (h : Spell ls s) : text ls = s := by
  have hvalues : ls.filterMap value? = s.toList := by
    unfold Spell at h
    generalize s.toList = cs at h
    induction h with
    | nil => rfl
    | cons hl _ ih => rw [List.filterMap_cons_some hl, ih]
  rw [text, hvalues, String.ofList_toList]

namespace Phrase

mutual

/-- The expression that a text is in a script. -/
def expression : Phrase → Expression
  | null => .word "null"
  | bool true => .word "true"
  | bool false => .word "false"
  | number u => u.expression
  | string ls => .string (Letter.text ls)
  | array _ items => .array (itemExpressions items) false
  | object _ fields => .object (fieldExpressions fields) false
  | spaced _ p _ => p.expression
termination_by structural p => p

/-- The expressions of items. -/
def itemExpressions : List Phrase → List Expression
  | [] => []
  | p :: rest => p.expression :: itemExpressions rest
termination_by structural items => items

/-- The keys and expressions of fields. -/
def fieldExpressions : List (Key × Phrase) → List (TokenKind × Expression)
  | [] => []
  | (k, p) :: rest => (.string (Letter.text k.letters), p.expression) :: fieldExpressions rest
termination_by structural fields => fields

end

mutual

/-- The expression of a text for a value means a tree whose literal agrees with the value. -/
theorem value_expression [Library] (bindings : Bindings) (p : Phrase) {v : Json} (h : p.Denotes v) :
    ∃ c, p.expression.value bindings = some (some c) ∧ c.HasLiteral v :=
  match p, h with
  | null, .null => ⟨.constant .null, rfl, .null, rfl, rfl⟩
  | bool true, .bool _ => ⟨.constant (.bool true), rfl, .bool true, rfl, rfl⟩
  | bool false, .bool _ => ⟨.constant (.bool false), rfl, .bool false, rfl, rfl⟩
  | number _, .number h => Numeral.value_expression bindings h
  | string ls, .string (s := s) h =>
    ⟨.constant (.string s), by rw [expression, Letter.text_of_spell h]; rfl, .string s, rfl,
      beq_self_eq_true s⟩
  | array _ items, .array _ h => by
    obtain ⟨cs, hvalues, hcs⟩ := itemValues_expressions bindings items h
    refine ⟨.array cs, ?_, .array hcs⟩
    rw [expression, Expression.value, hvalues]
    simp
  | object _ fields, .object _ h => by
    obtain ⟨cs, hvalues, hcs⟩ := fieldValues_expressions bindings fields h .nil
    refine ⟨.object cs, ?_, .object hcs⟩
    rw [expression, Expression.value, hvalues]
    rfl
  | spaced _ p _, .spaced _ _ h => value_expression bindings p h
termination_by structural p

theorem itemValues_expressions [Library] (bindings : Bindings) (items : List Phrase)
    {vs : List Json} (h : ItemsDenote items vs) :
    ∃ cs, Expression.itemValues bindings (itemExpressions items) = some (cs.map some)
      ∧ List.Forall₂ (fun v (c : Constraint) => c.HasLiteral v) vs cs :=
  match items, h with
  | [], .nil => ⟨[], rfl, .nil⟩
  | p :: rest, .cons h hrest => by
    obtain ⟨c, hc, hv⟩ := value_expression bindings p h
    obtain ⟨cs, hcs, hvs⟩ := itemValues_expressions bindings rest hrest
    refine ⟨c :: cs, ?_, .cons hv hvs⟩
    simp only [itemExpressions, Expression.itemValues, hc, hcs, List.map_cons]
termination_by structural items

theorem fieldValues_expressions [Library] (bindings : Bindings) (fields : List (Key × Phrase))
    {fs done : List (String × Json)} {before : List (String × Constraint)}
    (h : FieldsDenote fields fs) (hbefore : Constraint.FieldsAlike done before) :
    ∃ cs, Expression.fieldValues bindings before (fieldExpressions fields) = some cs
      ∧ Constraint.FieldsAlike (fs.foldl (fun done f => setField f.1 f.2 done) done) cs :=
  match fields, h with
  | [], .nil => ⟨before, rfl, hbefore⟩
  | (key, p) :: rest, .cons (k := k) hkey h hrest => by
    obtain ⟨c, hc, hv⟩ := value_expression bindings p h
    obtain ⟨cs, hcs, hfields⟩ := fieldValues_expressions bindings rest hrest (hbefore.put k hv)
    refine ⟨cs, ?_, hfields⟩
    simp only [fieldExpressions, Expression.fieldValues, Letter.text_of_spell hkey, Script.keyOf?,
      hc, hcs]
termination_by structural fields

end

end Phrase

end Json

end HttpContract
