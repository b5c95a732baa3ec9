import HttpContract.Proofs.Json.Length
import HttpContract.Proofs.Script.Size

/-!
# Script — how much there is in an expression

`Expression.weight` counts what is in an expression: so much for each expression and so much for
each byte of the longer texts in it. Where only expressions count it is the number of nodes
(`weight_nodes`), and it is bounded by the nodes of an expression and the texts among its tokens
(`weight_le`). Short texts, as those of all numbers are (`Measure.text_number`), are taken to be
part of the expression that they stand in.
-/

namespace HttpContract.Script

open String (utf8Len utf8Len_cons utf8Len_toList)

/-- What is counted: each expression, and each byte of a text. -/
structure Measure where
  node : Nat
  byte : Nat

namespace Measure

variable (w : Measure)

/-- The size up to which texts are short: identifiers that are drawn are. -/
def shortSize : Nat := 36

/-- What a text adds to the expression that it stands in. -/
def text (s : String) : Nat := if s.utf8ByteSize ≤ shortSize then 0 else w.byte * s.utf8ByteSize

theorem text_short {s : String} (h : s.utf8ByteSize ≤ shortSize) : w.text s = 0 := if_pos h

theorem text_le (s : String) : w.text s ≤ w.byte * s.utf8ByteSize := by
  unfold text
  split
  · exact Nat.zero_le _
  · exact le_rfl

theorem text_number (n : Json.Number) : w.text n.text = 0 :=
  w.text_short ((Json.size_number n).trans (by decide))

theorem size_toUpper (c : Char) : c.toUpper.utf8Size = c.utf8Size := by
  unfold Char.toUpper
  split
  -- small letters and capital letters take one byte
  · rename_i h
    have h1 : ('a'.val).toNat = 97 := rfl
    have h2 : ('z'.val).toNat = 122 := rfl
    have h3 : ('A'.val - 'a'.val).toNat = 4294967264 := rfl
    have hsmall : c.utf8Size = 1 := by
      rw [Char.utf8Size_eq_one_iff, UInt32.le_iff_toNat_le]
      rw [UInt32.le_iff_toNat_le, UInt32.le_iff_toNat_le] at h
      exact h.2.trans (by decide)
    rw [hsmall, Char.utf8Size_eq_one_iff]
    simp only [UInt32.le_iff_toNat_le, UInt32.toNat_add, h1, h2, h3] at h ⊢
    show _ ≤ 127
    omega
  · rfl

theorem text_toUpper (s : String) : w.text s.toUpper = w.text s := by
  have hsize : s.toUpper.utf8ByteSize = s.utf8ByteSize := by
    have hchars : ∀ cs : List Char, utf8Len (cs.map Char.toUpper) = utf8Len cs := by
      intro cs
      induction cs with
      | nil => rfl
      | cons c rest ih => rw [List.map_cons, utf8Len_cons, utf8Len_cons, ih, size_toUpper]
    rw [← utf8Len_toList, ← utf8Len_toList, String.toUpper, String.toList_map, hchars]
  rw [text, text, hsize]

/-- What the key of a field adds. -/
def key (k : TokenKind) : Nat := (keyOf? k).elim 0 w.text

theorem key_le (k : TokenKind) : w.key k ≤ w.byte * k.size := by
  cases k with
  | string s => exact w.text_le s
  | identifier name => exact w.text_le name
  | number n => exact (w.text_number n).le.trans (Nat.zero_le _)
  | _ => exact Nat.zero_le _

end Measure

namespace Expression

variable {w : Measure} {n : Nat}

mutual

/-- How much there is in an expression. -/
def weight (w : Measure) : Expression → Nat
  | word _ => w.node
  | string s => w.node + w.text s
  | number _ => w.node
  | signed _ _ => w.node
  | object fields _ => w.node + fieldWeight w fields
  | array items _ => w.node + itemWeight w items
  | call _ arguments _ => w.node + itemWeight w arguments
termination_by structural e => e

/-- How much there is in fields. -/
def fieldWeight (w : Measure) : List (TokenKind × Expression) → Nat
  | [] => 0
  | (k, e) :: rest => w.key k + weight w e + fieldWeight w rest
termination_by structural fields => fields

/-- How much there is in items or arguments. -/
def itemWeight (w : Measure) : List Expression → Nat
  | [] => 0
  | e :: rest => weight w e + itemWeight w rest
termination_by structural items => items

end

theorem fieldWeight_eq_sum (fields : List (TokenKind × Expression)) :
    fieldWeight w fields = (fields.map fun f => w.key f.1 + f.2.weight w).sum := by
  induction fields with
  | nil => rfl
  | cons f rest ih => rw [fieldWeight, ih, List.map_cons, List.sum_cons]

theorem itemWeight_eq_sum (items : List Expression) :
    itemWeight w items = (items.map (weight w)).sum := by
  induction items with
  | nil => rfl
  | cons e rest ih => rw [itemWeight, ih, List.map_cons, List.sum_cons]

theorem node_le_weight (e : Expression) : w.node ≤ e.weight w := by
  cases e <;> simp [weight]

mutual

/-- Where only expressions count, the weight is their number. -/
theorem weight_nodes (e : Expression) : e.weight ⟨1, 0⟩ = e.nodes :=
  match e with
  | word _ => rfl
  | string s => by simp [weight, nodes, Measure.text]
  | number _ => rfl
  | signed _ _ => rfl
  | object fields _ => by rw [weight, nodes, fieldWeight_nodes fields]
  | array items _ => by rw [weight, nodes, itemWeight_nodes items]
  | call _ arguments _ => by rw [weight, nodes, itemWeight_nodes arguments]
termination_by structural e

theorem fieldWeight_nodes (fields : List (TokenKind × Expression)) :
    fieldWeight ⟨1, 0⟩ fields = fieldNodes fields :=
  match fields with
  | [] => rfl
  | (k, e) :: rest => by
    have hkey : Measure.key ⟨1, 0⟩ k = 0 := by
      have hle := Measure.key_le ⟨1, 0⟩ k
      rw [Nat.zero_mul] at hle
      exact Nat.le_zero.mp hle
    rw [fieldWeight, fieldNodes, weight_nodes e, fieldWeight_nodes rest, hkey, Nat.zero_add]
termination_by structural fields

theorem itemWeight_nodes (items : List Expression) :
    itemWeight ⟨1, 0⟩ items = itemNodes items :=
  match items with
  | [] => rfl
  | e :: rest => by rw [itemWeight, itemNodes, weight_nodes e, itemWeight_nodes rest]
termination_by structural items

end

mutual

/-- The weight of an expression is bounded by its nodes and the texts among its tokens. -/
theorem weight_le (e : Expression) : e.weight w ≤ w.node * e.nodes + w.byte * textSize e.kinds :=
  match e with
  | word _ => by simp [weight, nodes]
  | string s => by
    have htext := w.text_le s
    simpa [weight, nodes, kinds, textSize, TokenKind.size] using htext
  | number _ => by simp [weight, nodes]
  | signed _ _ => by simp [weight, nodes]
  | object fields trailing => by
    have hfields := fieldWeight_le fields trailing
    simp only [weight, nodes, kinds, textSize_cons, textSize_append, Nat.mul_add, Nat.mul_one]
    omega
  | array items trailing => by
    have hitems := itemWeight_le items trailing
    simp only [weight, nodes, kinds, textSize_cons, textSize_append, Nat.mul_add, Nat.mul_one]
    omega
  | call _ arguments trailing => by
    have harguments := itemWeight_le arguments trailing
    simp only [weight, nodes, kinds, textSize_cons, textSize_append, Nat.mul_add, Nat.mul_one]
    omega
termination_by structural e

theorem fieldWeight_le (fields : List (TokenKind × Expression)) (trailing : Bool) :
    fieldWeight w fields
      ≤ w.node * fieldNodes fields + w.byte * textSize (fieldKinds trailing fields) :=
  match fields with
  | [] => Nat.zero_le _
  | (k, e) :: rest => by
    have hkey := w.key_le k
    have hvalue := weight_le e
    have hrest := fieldWeight_le rest trailing
    simp only [fieldWeight, fieldNodes, fieldKinds, textSize_cons, textSize_append, Nat.mul_add]
    omega
termination_by structural fields

theorem itemWeight_le (items : List Expression) (trailing : Bool) :
    itemWeight w items
      ≤ w.node * itemNodes items + w.byte * textSize (itemKinds trailing items) :=
  match items with
  | [] => Nat.zero_le _
  | e :: rest => by
    have hitem := weight_le e
    have hrest := itemWeight_le rest trailing
    simp only [itemWeight, itemNodes, itemKinds, textSize_append, Nat.mul_add]
    omega
termination_by structural items

end

/-! ## Depth -/

theorem fieldDepth_le_iff {fields : List (TokenKind × Expression)} :
    fieldDepth fields ≤ n ↔ ∀ f ∈ fields, f.2.depth ≤ n := by
  induction fields with
  | nil => simp [fieldDepth]
  | cons f rest ih => rw [fieldDepth, max_le_iff, ih, List.forall_mem_cons]

theorem itemDepth_le_iff {items : List Expression} :
    itemDepth items ≤ n ↔ ∀ e ∈ items, e.depth ≤ n := by
  induction items with
  | nil => simp [itemDepth]
  | cons e rest ih => rw [itemDepth, max_le_iff, ih, List.forall_mem_cons]

end Expression

end HttpContract.Script
