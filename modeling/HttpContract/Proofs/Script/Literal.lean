import HttpContract.Proofs.Json.Number
import HttpContract.Proofs.Script.Layout

/-!
# Script — JSON values in scripts

A JSON value is written in a script as in JSON. `Expression.ofJson` is the expression that its text
scans to (`prints_json`), and `Constraint.ofJson` is what the expression means (`value_ofJson`), a
tree whose literal is the value again (`literal?_ofJson`). Values that scripts can hold are
`Json.Scripted`: their whole numbers fit a signed word on either side of zero and the fields of
their objects have different names.
-/

namespace HttpContract

open Json (WordInt)
open Json.Number (signChars writtenDouble toList_jsonText)
open Script (Builtin Bindings Expression Prints Delimited TokenKind yields_integer yields_double
  prints_quoted prints_name enclosed following negated)

/-! ## Values that scripts can hold -/

/-- The whole numbers that a script can hold: they fit a signed word, and so do their opposites. -/
def Json.WordInt.Scripted (n : WordInt) : Prop :=
  -9223372036854775808 < n.val ∧ n.val < 9223372036854775808

/-- The values that a script can hold. -/
inductive Json.Scripted : Json → Prop where
  | null : Scripted .null
  | bool (b : Bool) : Scripted (.bool b)
  | string (s : String) : Scripted (.string s)
  | integer {n : WordInt} (h : n.Scripted) : Scripted (.number (.integer n))
  | float (x : Binary64) : Scripted (.number (.float x))
  | array {items : List Json} (h : ∀ v ∈ items, Scripted v) : Scripted (.array items)
  | object {fields : List (String × Json)} (hkeys : (fields.map (·.1)).Nodup)
    (h : ∀ f ∈ fields, Scripted f.2) : Scripted (.object fields)

/-! ## Numbers -/

namespace Script.Expression

/-- The expression of a number: its sign is a token of its own. -/
def ofNumber : Json.Number → Expression
  | .integer n =>
    if n.val < 0 then .signed true (.integer (WordInt.ofInt (-n.val))) else .number (.integer n)
  | .float x =>
    if x.negative then .signed true (.float { x with negative := false }) else .number (.float x)

theorem value_ofNumber [Library] (bindings : Bindings) (n : Json.Number) :
    (ofNumber n).value bindings = some (some (.constant (.number n))) := by
  cases n with
  | integer n =>
    rw [ofNumber]
    split
    · have hback : WordInt.ofInt (-(WordInt.ofInt (-n.val)).val) = n := by
        apply WordInt.ofInt_val
        have hlower := n.lower
        simp only [WordInt.ofInt]
        omega
      simp only [value, if_true, negated, hback]
    · rfl
  | float x =>
    rw [ofNumber]
    split
    · rename_i hnegative
      have hback : Binary64.negate { x with negative := false } = x := by
        simp only [Binary64.negate, Bool.not_false, ← hnegative]
      simp only [value, if_true, negated, hback]
    · rfl

end Script.Expression

theorem toList_toString_nat (n : Nat) : (toString n).toList = Nat.toDigits 10 n := by
  rw [Nat.toString_eq_ofList_toDigits, String.toList_ofList]

theorem prints_number {n : Json.Number} (h : (Json.number n).Scripted) :
    Prints n.text.toList (Expression.ofNumber n).kinds := by
  cases n with
  | integer n =>
    cases h with
    | integer h =>
      obtain ⟨hlower, hupper⟩ := h
      rw [Expression.ofNumber]
      split
      · rename_i hnegative
        -- the sign is a token of its own, behind it stand the digits of the opposite
        obtain ⟨m, hm⟩ : ∃ m : Nat, -n.val = m := ⟨(-n.val).toNat, by omega⟩
        have htext : (Json.Number.integer n).text.toList = '-' :: Nat.toDigits 10 m := by
          obtain ⟨k, hk⟩ : ∃ k, n.val = Int.negSucc k := Int.eq_negSucc_of_lt_zero hnegative
          have hmk : m = k + 1 := by omega
          rw [Json.Number.text, hk, hmk, ← toList_toString_nat]
          show ("-" ++ toString (k + 1)).toList = _
          rw [String.toList_append]
          rfl
        rw [htext, hm]
        exact (Script.Yields.prints fun rest hrest => yields_integer (by omega) hrest).after_symbol
          (s := .minus) (by simp)
      · rename_i hnegative
        obtain ⟨m, hm⟩ : ∃ m : Nat, n.val = m := ⟨n.val.toNat, by omega⟩
        have htext : (Json.Number.integer n).text.toList = Nat.toDigits 10 m := by
          rw [Json.Number.text, hm, ← toList_toString_nat]
          rfl
        rw [htext, ← WordInt.ofInt_val hm]
        exact Script.Yields.prints fun rest hrest => yields_integer (by omega) hrest
  | float x =>
    rw [Json.Number.text, toList_jsonText]
    rw [Expression.ofNumber]
    split
    · rename_i hnegative
      rw [hnegative]
      exact (Script.Yields.prints fun rest hrest => yields_double x hrest).after_symbol
        (s := .minus) (by simp)
    · rename_i hnegative
      have hx : { x with negative := false } = x := by
        simp only [Bool.not_eq_true] at hnegative
        rw [← hnegative]
      have hprints : Prints (writtenDouble x).body
          [.number (.float { x with negative := false })] :=
        Script.Yields.prints fun _ hrest => yields_double x hrest
      rw [hx] at hprints
      simp only [Bool.not_eq_true] at hnegative
      rw [hnegative]
      exact hprints

/-! ## Values -/

namespace Script.Expression

mutual

/-- The expression of a value. -/
def ofJson : Json → Expression
  | .null => .word "null"
  | .bool true => .word "true"
  | .bool false => .word "false"
  | .number n => ofNumber n
  | .string s => .string s
  | .array items => .array (ofItems items) false
  | .object fields => .object (ofFields fields) false
termination_by structural v => v

/-- The expressions of items. -/
def ofItems : List Json → List Expression
  | [] => []
  | v :: rest => ofJson v :: ofItems rest
termination_by structural items => items

/-- The expressions of fields. -/
def ofFields : List (String × Json) → List (TokenKind × Expression)
  | [] => []
  | (k, v) :: rest => (.string k, ofJson v) :: ofFields rest
termination_by structural fields => fields

end

theorem ofItems_eq_map (items : List Json) : ofItems items = items.map ofJson := by
  induction items with
  | nil => rfl
  | cons v rest ih => rw [ofItems, ih, List.map_cons]

theorem ofFields_eq_map (fields : List (String × Json)) :
    ofFields fields = fields.map fun f => (.string f.1, ofJson f.2) := by
  induction fields with
  | nil => rfl
  | cons f rest ih => rw [ofFields, ih, List.map_cons]

end Script.Expression

namespace Constraint

mutual

/-- The tree that a value means in a script. -/
def ofJson : Json → Constraint
  | .null => .constant .null
  | .bool b => .constant (.bool b)
  | .number n => .constant (.number n)
  | .string s => .constant (.string s)
  | .array items => .array (ofItems items)
  | .object fields => .object (ofFields fields)
termination_by structural v => v

/-- The trees that items mean. -/
def ofItems : List Json → List Constraint
  | [] => []
  | v :: rest => ofJson v :: ofItems rest
termination_by structural items => items

/-- The trees that fields mean. -/
def ofFields : List (String × Json) → List (String × Constraint)
  | [] => []
  | (k, v) :: rest => (k, ofJson v) :: ofFields rest
termination_by structural fields => fields

end

theorem ofItems_eq_map (items : List Json) : ofItems items = items.map ofJson := by
  induction items with
  | nil => rfl
  | cons v rest ih => rw [ofItems, ih, List.map_cons]

theorem ofFields_eq_map (fields : List (String × Json)) :
    ofFields fields = fields.map fun f => (f.1, ofJson f.2) := by
  induction fields with
  | nil => rfl
  | cons f rest ih => rw [ofFields, ih, List.map_cons]

mutual

/-- A value is the literal of its tree. -/
theorem literal?_ofJson (v : Json) : (ofJson v).literal? = some v :=
  match v with
  | .null => rfl
  | .bool _ => rfl
  | .number _ => rfl
  | .string _ => rfl
  | .array items => by rw [ofJson, literal?, literalItems?_ofItems items, Option.map_some]
  | .object fields => by rw [ofJson, literal?, literalFields?_ofFields fields, Option.map_some]
termination_by structural v

theorem literalItems?_ofItems (items : List Json) : literalItems? (ofItems items) = some items :=
  match items with
  | [] => rfl
  | v :: rest => by
    simp only [ofItems, literalItems?, literal?_ofJson v, literalItems?_ofItems rest]
termination_by structural items

theorem literalFields?_ofFields (fields : List (String × Json)) :
    literalFields? (ofFields fields) = some fields :=
  match fields with
  | [] => rfl
  | (k, v) :: rest => by
    simp only [ofFields, literalFields?, literal?_ofJson v, literalFields?_ofFields rest]
termination_by structural fields

end

end Constraint

/-! ## Their texts and their meaning -/

theorem charsAfterItem_eq (items : List Json) :
    Json.charsAfterItem items = following [] [']'] (items.map Json.chars) := by
  induction items with
  | nil => rfl
  | cons v rest ih => simp [Json.charsAfterItem, following, ih]

theorem charsAfterField_eq (fields : List (String × Json)) :
    Json.charsAfterField fields
      = following [] ['\x7d'] (fields.map fun f => Json.quotedChars f.1 ++ ':' :: f.2.chars) := by
  induction fields with
  | nil => rfl
  | cons f rest ih => simp [Json.charsAfterField, following, ih]

theorem chars_array_eq (items : List Json) :
    (Json.array items).chars = enclosed '[' ']' [] [] [] (items.map Json.chars) := by
  cases items with
  | nil => rfl
  | cons v rest => simp [Json.chars, enclosed, charsAfterItem_eq]

theorem chars_object_eq (fields : List (String × Json)) :
    (Json.object fields).chars = enclosed '\x7b' '\x7d' [] [] []
      (fields.map fun f => Json.quotedChars f.1 ++ ':' :: f.2.chars) := by
  cases fields with
  | nil => rfl
  | cons f rest => simp [Json.chars, enclosed, charsAfterField_eq]

theorem blank_nil : Script.Blank [] := by
  intro c hc
  cases hc

/-- The compact text of a value scans to its expression. -/
theorem prints_json {v : Json} (h : v.Scripted) : Prints v.chars (Expression.ofJson v).kinds := by
  induction h with
  | null => exact prints_name "null" (by decide)
  | bool b =>
    cases b
    · exact prints_name "false" (by decide)
    · exact prints_name "true" (by decide)
  | string s => exact prints_quoted s
  | integer h => exact prints_number (.integer h)
  | float x => exact prints_number (.float x)
  | @array items _ ih =>
    rw [chars_array_eq, Expression.ofJson, Expression.kinds, Expression.itemKinds_false,
      Expression.ofItems_eq_map, List.map_map]
    exact Prints.enclosed .leftBracket .rightBracket blank_nil blank_nil blank_nil (by simp)
      (by simp) (by decide) (forall₂_map ih)
  | @object fields _ _ ih =>
    rw [chars_object_eq, Expression.ofJson, Expression.kinds, Expression.fieldKinds_false,
      Expression.ofFields_eq_map, List.map_map]
    refine Prints.enclosed .leftBrace .rightBrace blank_nil blank_nil blank_nil (by simp) (by simp)
      (by decide) (forall₂_map ?_)
    intro f hf
    exact (prints_quoted f.1).keyed blank_nil (ih f hf)

/-- The expression of a value means its tree. -/
theorem value_ofJson [Library] (bindings : Bindings) {v : Json} (h : v.Scripted) :
    (Expression.ofJson v).value bindings = some (some (Constraint.ofJson v)) := by
  induction h with
  | null => rfl
  | bool b => cases b <;> rfl
  | string s => rfl
  | @integer n h => exact Expression.value_ofNumber bindings (.integer n)
  | float x => exact Expression.value_ofNumber bindings (.float x)
  | @array items _ ih =>
    have hvalues := Expression.itemValues_map ih
    rw [Expression.ofJson, Expression.ofItems_eq_map, Expression.value, hvalues, Constraint.ofJson,
      Constraint.ofItems_eq_map]
    simp
  | @object fields hkeys _ ih =>
    have hbefore : ∀ f ∈ fields, f.1 ∉ ([] : List (String × Constraint)).map (·.1) := by simp
    have hvalues := Expression.fieldValues_map (fun f : String × Json => .string f.1) (·.1)
      (fun f _ => rfl) hkeys hbefore ih
    rw [Expression.ofJson, Expression.ofFields_eq_map, Expression.value, hvalues,
      Constraint.ofJson, Constraint.ofFields_eq_map]
    rfl

end HttpContract
