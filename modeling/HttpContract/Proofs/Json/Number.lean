import HttpContract.Json.Number
import HttpContract.Proofs.Binary64.Order

/-!
# Json.Number — numbers with the same value

Two words are compared as they are, and numbers of which one is a double as doubles. That is the
same as comparing in the narrowest type that holds both (`same_eq_narrowest`), as no negative word
is rounded to the double of one beyond the signed ones. The comparison does not depend on the order
of its sides (`same_comm`). It is transitive but for one case: from `2 ^ 53` on, where words are
rounded, a double may be the same as two words that differ (`same_trans_iff`).
-/

namespace HttpContract.Json

open Binary64 (one one_pos_int isInt_ofInt isInt_zero ofInt_mono)

/-! ## Words -/

theorem WordInt.ofInt_val {n : WordInt} {i : Int} (h : n.val = i) : WordInt.ofInt i = n := by
  obtain ⟨val, lower, upper⟩ := n
  simp only at h
  simp only [WordInt.ofInt, WordInt.mk.injEq]
  omega

theorem WordInt.val_ofInt {n : Int} (hlo : -2 ^ 63 ≤ n) (hhi : n < 2 ^ 64) :
    (WordInt.ofInt n).val = n := by
  simp only [WordInt.ofInt]
  omega

namespace Number

/-- The exact value of a number, in units. -/
def units : Number → Int
  | integer n => n.val * one
  | float x => x.units

/-! ## The type that numbers are compared in -/

/-- The signed word that a number is, unless it is none. -/
def signed? : Number → Option Int
  | integer n => if n.isSigned then some n.val else none
  | float _ => none

/-- The unsigned word that a number is, unless it is none. -/
def unsigned? : Number → Option Int
  | integer n => if 0 ≤ n.val then some n.val else none
  | float _ => none

theorem val_of_signed? {n : WordInt} {i : Int} (h : (integer n).signed? = some i) : n.val = i := by
  rw [signed?, Option.ite_none_right_eq_some] at h
  exact Option.some.inj h.2

theorem val_of_unsigned? {n : WordInt} {i : Int} (h : (integer n).unsigned? = some i) :
    n.val = i := by
  rw [unsigned?, Option.ite_none_right_eq_some] at h
  exact Option.some.inj h.2

/-- A negative number and one from `2 ^ 63` on have different doubles. -/
theorem ofInt_ne_ofInt {i j : Int} (hi : i < 0) (hj : 2 ^ 63 ≤ j) :
    (Binary64.ofInt i).units ≠ (Binary64.ofInt j).units := by
  have hzero : (Binary64.ofInt 0).IsInt 0 := isInt_ofInt (by decide)
  have hlarge : (Binary64.ofInt (2 ^ 53)).IsInt (2 ^ 53) := isInt_ofInt (by decide)
  have hlow := ofInt_mono (Int.le_of_lt hi)
  have hhigh := ofInt_mono (show 2 ^ 53 ≤ j by omega)
  have hone := one_pos_int
  rw [hzero] at hlow
  rw [hlarge] at hhigh
  omega

/-- Two words that are neither both signed nor both unsigned differ, and so do their doubles. -/
theorem same_toBinary64 {i j : WordInt} (hsigned : ¬ (i.isSigned = true ∧ j.isSigned = true))
    (hunsigned : ¬ (0 ≤ i.val ∧ 0 ≤ j.val)) :
    (integer i).toBinary64.same (integer j).toBinary64 = (i.val == j.val) := by
  simp only [WordInt.isSigned, decide_eq_true_eq] at hsigned
  have hne : (Binary64.ofInt i.val).units ≠ (Binary64.ofInt j.val).units := by
    by_cases hi : i.val < 0
    · exact ofInt_ne_ofInt hi (by omega)
    · exact (ofInt_ne_ofInt (by omega) (by omega)).symm
  rw [Binary64.same, toBinary64, toBinary64, beq_eq_false_iff_ne.mpr hne,
    beq_eq_false_iff_ne.mpr (by omega)]

/-- Numbers are compared as signed words if both are such words, else as unsigned ones if both are,
and as doubles in all other cases. -/
theorem same_eq_narrowest (m n : Number) :
    m.same n =
      match m.signed?, n.signed? with
      | some i, some j => i == j
      | _, _ =>
        match m.unsigned?, n.unsigned? with
        | some i, some j => i == j
        | _, _ => m.toBinary64.same n.toBinary64 := by
  match m, n with
  | float x, n => rfl
  | integer i, float y => cases signed? (integer i) <;> cases unsigned? (integer i) <;> rfl
  | integer i, integer j =>
    split
    case h_1 hi hj => rw [same, val_of_signed? hi, val_of_signed? hj]
    case h_2 hsigned =>
      split
      case h_1 hi hj => rw [same, val_of_unsigned? hi, val_of_unsigned? hj]
      case h_2 hunsigned =>
        exact (same_toBinary64 (fun h => hsigned _ _ (if_pos h.1) (if_pos h.2))
          (fun h => hunsigned _ _ (if_pos h.1) (if_pos h.2))).symm

/-! ## Order of the sides -/

theorem same_self (n : Number) : n.same n = true := by
  cases n <;> exact beq_self_eq_true _

theorem same_comm (m n : Number) : m.same n = n.same m := by
  cases m <;> cases n <;> exact BEq.comm

/-! ## Three numbers -/

theorem units_eq_of_same {m n : Number} (h : m.same n = true) :
    m.toBinary64.units = n.toBinary64.units := by
  cases m <;> cases n
  · rw [toBinary64, toBinary64, eq_of_beq h]
  all_goals exact eq_of_beq h

/-- Two words that differ, with a double between them that is large enough for both to be rounded
to it. -/
inductive Parted : Number → Number → Number → Prop where
  | words {m n : WordInt} {x : Binary64} (hne : m.val ≠ n.val)
    (hx : 2 ^ 53 * one ≤ x.units.natAbs) : Parted (integer m) (float x) (integer n)

/-- A whole number that is rounded to a double of less than `2 ^ 53` is that double. -/
theorem isInt_of_units {i : Int} {x : Binary64} (h : (Binary64.ofInt i).units = x.units)
    (hx : x.units.natAbs < 2 ^ 53 * one) : x.IsInt i := by
  rcases Int.lt_trichotomy x.units (i * one) with hlt | heq | hgt
  · have hlt := Binary64.lt_ofInt hx hlt
    omega
  · exact heq
  · have hgt := Binary64.ofInt_lt hx hgt
    omega

/-- Numbers that are the same as a third one are the same, unless that one is a double and they are
words that are rounded to it. -/
theorem same_trans_iff {m x n : Number} (hm : m.same x = true) (hn : x.same n = true) :
    m.same n = true ↔ ¬ Parted m x n := by
  have hunits := (units_eq_of_same hm).trans (units_eq_of_same hn)
  constructor
  · rintro h ⟨hne, -⟩
    exact hne (eq_of_beq h)
  · intro hparted
    match m, x, n with
    | float _, _, n => cases n <;> exact beq_iff_eq.mpr hunits
    | integer _, _, float _ => exact beq_iff_eq.mpr hunits
    | integer i, integer j, integer k =>
      have hij : i.val = j.val := eq_of_beq hm
      exact beq_iff_eq.mpr (hij.trans (eq_of_beq hn))
    | integer i, float x, integer k =>
      by_contra hne
      have hne : i.val ≠ k.val := fun h => hne (beq_iff_eq.mpr h)
      have hx : x.units.natAbs < 2 ^ 53 * one := by
        by_contra hlarge
        exact hparted (.words hne (by omega))
      have hi : x.IsInt i.val := isInt_of_units (units_eq_of_same hm) hx
      have hk : x.IsInt k.val := isInt_of_units (units_eq_of_same hn).symm hx
      exact hne (Int.eq_of_mul_eq_mul_right one_pos_int.ne' (hi.symm.trans hk))

end Number

end HttpContract.Json
