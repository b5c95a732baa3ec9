import HttpContract.Proofs.Binary64.Shortest

/-!
# Binary64 — whole numbers

Whole numbers up to `2 ^ 53` are doubles, and computing with them is exact as long as the results
stay there (`isInt_ofInt`, `IsInt.add`). Rounding a double to a whole number gives the one before or
behind it (`isInt_floor`, `isInt_ceil`). Reading the digits of a whole number gives the double that
the number is brought to (`units_ofDecimal?`).
-/

namespace HttpContract.Binary64

/-! ## Doubles at their own place -/

theorem unitsOf_zero : unitsOf 0 = 0 := if_pos (by decide)

/-- The double with a place is the one nearest to its own size. -/
theorem nearest_unitsOf (m : Nat) : nearest (unitsOf m) 1 = m := by
  rcases Nat.eq_zero_or_pos m with rfl | hm
  · rw [unitsOf_zero]
    decide
  · have hbelow : unitsOf (m - 1 + 1) = unitsOf (m - 1) + gap (m - 1) := unitsOf_succ (m - 1)
    have habove : unitsOf (m + 1) = unitsOf m + gap m := unitsOf_succ m
    rw [Nat.sub_add_cancel hm] at hbelow
    have hgap := gap_pos (m - 1)
    have hgap' := gap_pos m
    exact nearest_eq Nat.one_pos hm (by omega) (by omega)

/-- Every whole number up to `2 ^ 53` is the size of a double. -/
theorem exists_unitsOf_eq {k : Nat} (hk : k ≤ 2 ^ 53) :
    ∃ m, m < 2047 * binade ∧ unitsOf m = k * one := by
  rcases Nat.eq_zero_or_pos k with rfl | hpos
  · exact ⟨0, by decide, by rw [unitsOf_zero, Nat.zero_mul]⟩
  · -- the number is scaled up to 53 bits
    have hlow : 2 ^ k.log2 ≤ k := Nat.log2_self_le (by omega)
    have hhigh : k < 2 ^ (k.log2 + 1) := Nat.lt_log2_self
    have hlog : k.log2 < 54 := (Nat.log2_lt (by omega)).mpr (by omega)
    generalize k.log2 = l at hlow hhigh hlog
    have hscale : binade ≤ k * 2 ^ (52 - l) ∧ k * 2 ^ (52 - l) ≤ 2 * binade := by
      by_cases hl : l ≤ 52
      · have hsplit : 2 ^ l * 2 ^ (52 - l) = binade := by
          rw [← Nat.pow_add, Nat.add_sub_cancel' hl]
        have hdouble : 2 ^ (l + 1) * 2 ^ (52 - l) = 2 * binade := by
          rw [Nat.pow_succ, Nat.mul_right_comm, hsplit, Nat.mul_comm]
        exact ⟨hsplit ▸ Nat.mul_le_mul_right _ hlow,
          hdouble ▸ Nat.mul_le_mul_right _ (Nat.le_of_lt hhigh)⟩
      · obtain rfl : l = 53 := by omega
        unfold binade
        omega
    refine ⟨(1074 - (52 - l)) * binade + k * 2 ^ (52 - l), ?_, ?_⟩
    · unfold binade at *
      omega
    · rw [unitsOf_scaled (.inr hscale.1) hscale.2, Nat.mul_assoc, ← Nat.pow_add]
      exact congrArg (k * ·) (congrArg (Nat.pow 2) (by omega))

/-! ## Whole numbers -/

theorem one_pos_int : (0 : Int) < one := Int.natCast_pos.mpr one_pos

/-- A double is a whole number. -/
def IsInt (x : Binary64) (k : Int) : Prop := x.units = k * one

theorem isInt_ofSignedUnits {k : Int} (hk : k.natAbs ≤ 2 ^ 53) :
    (ofSignedUnits (k * one) 1).IsInt k := by
  obtain ⟨m, hfinite, hm⟩ := exists_unitsOf_eq hk
  have hone := one_pos_int
  have habs : (k * one).natAbs = unitsOf m := by
    rw [Int.natAbs_mul, Int.natAbs_natCast, hm]
  have hround : ofSignedUnits (k * one) 1 = ⟨k * one < 0, m, hfinite⟩ := by
    simp only [ofSignedUnits, ofUnits, ofUnits?, habs, nearest_unitsOf, dif_pos hfinite,
      Option.getD_some]
  rw [IsInt, hround, units, hm]
  by_cases hneg : k < 0
  · have hlt : k * one < 0 := Int.mul_neg_of_neg_of_pos hneg hone
    rw [if_pos (decide_eq_true hlt)]
    rw [Int.natCast_mul, Int.ofNat_natAbs_of_nonpos (by omega), neg_mul, neg_neg]
  · have hge : ¬ k * one < 0 := Int.not_lt.mpr (Int.mul_nonneg (by omega) (by omega))
    rw [if_neg (mt of_decide_eq_true hge)]
    rw [Int.natCast_mul, Int.natAbs_of_nonneg (by omega)]

theorem isInt_ofInt {k : Int} (hk : k.natAbs ≤ 2 ^ 53) : (ofInt k).IsInt k :=
  isInt_ofSignedUnits hk

theorem isInt_zero : zero.IsInt 0 := by
  show ((unitsOf 0 : Nat) : Int) = 0 * one
  rw [unitsOf_zero, Int.zero_mul, Int.natCast_zero]

theorem unitsOf_magnitude (x : Binary64) : unitsOf x.magnitude = x.units.natAbs := by
  unfold units
  split <;> simp

theorem IsInt.unitsOf {x : Binary64} {k : Int} (h : x.IsInt k) :
    unitsOf x.magnitude = k.natAbs * one := by
  rw [unitsOf_magnitude, h, Int.natAbs_mul, Int.natAbs_natCast]

theorem units_negate (x : Binary64) : x.negate.units = -x.units := by
  unfold units negate
  cases x.negative <;> simp

theorem IsInt.negate {x : Binary64} {k : Int} (h : x.IsInt k) : x.negate.IsInt (-k) := by
  rw [IsInt, units_negate, h, neg_mul]

theorem IsInt.add {x y : Binary64} {j k : Int} (hx : x.IsInt j) (hy : y.IsInt k)
    (hsum : (j + k).natAbs ≤ 2 ^ 53) : (x.add y).IsInt (j + k) := by
  have heq : x.units + y.units = (j + k) * one := by rw [hx, hy, add_mul]
  unfold Binary64.add
  simp only [heq]
  split
  case isTrue h0 =>
    rw [IsInt, h0]
    unfold units
    split <;> simp [zero, unitsOf_zero]
  case isFalse => exact isInt_ofSignedUnits hsum

theorem IsInt.isWhole {x : Binary64} {k : Int} (h : x.IsInt k) : x.isWhole = true := by
  rw [Binary64.isWhole, h.unitsOf, Nat.mul_mod_left]
  rfl

theorem exists_isInt {x : Binary64} (h : x.isWhole = true) : ∃ k, x.IsInt k := by
  have hdvd : (one : Int) ∣ x.units := by
    rw [Int.natCast_dvd, ← unitsOf_magnitude]
    exact Nat.dvd_of_mod_eq_zero (by simpa [Binary64.isWhole] using h)
  obtain ⟨k, hk⟩ := hdvd
  exact ⟨k, by rw [IsInt, hk, Int.mul_comm]⟩

theorem IsInt.toWord {x : Binary64} {k : Int} (h : x.IsInt k) (hk : k.natAbs ≤ 2 ^ 53) :
    x.toWord = k := by
  have hone : (one : Int) ≠ 0 := Int.natCast_ne_zero.mpr (Nat.pos_iff_ne_zero.mp one_pos)
  rw [Binary64.toWord, h, Int.mul_tdiv_cancel _ hone]
  omega

/-- The sign of zero does not matter, and every other sign is that of the number. -/
theorem IsInt.signed {x : Binary64} {k : Int} (h : x.IsInt k) {negative : Bool}
    (hneg : negative = true → k ≤ 0) (hpos : negative = false → 0 ≤ k) :
    ({ x with negative } : Binary64).IsInt k := by
  have hunits := h.unitsOf
  unfold IsInt units
  simp only [hunits]
  cases negative with
  | true =>
    rw [if_pos rfl, Int.natCast_mul, Int.ofNat_natAbs_of_nonpos (hneg rfl), neg_mul, neg_neg]
  | false =>
    rw [if_neg (by decide), Int.natCast_mul, Int.natAbs_of_nonneg (hpos rfl)]

theorem units_nonpos {x : Binary64} (h : x.negative = true) : x.units ≤ 0 := by
  rw [units, if_pos h]
  omega

theorem units_nonneg {x : Binary64} (h : x.negative = false) : 0 ≤ x.units := by
  rw [units, if_neg (by simp [h])]
  omega

/-! ## Rounding to whole numbers -/

theorem IsInt.floor {x : Binary64} {k : Int} (h : x.IsInt k) : x.floor = x := by
  rw [Binary64.floor, if_pos h.isWhole]

theorem IsInt.ceil {x : Binary64} {k : Int} (h : x.IsInt k) : x.ceil = x := by
  rw [Binary64.ceil, if_pos h.isWhole]

variable {x : Binary64}

/-- The whole numbers around a double that is not too large are not too large either. -/
theorem natAbs_le_of_units {k : Int} (hx : x.units.natAbs ≤ 2 ^ 52 * one)
    (hlow : k * one ≤ x.units) (hhigh : x.units < (k + 1) * one) : k.natAbs ≤ 2 ^ 52 := by
  have hone := one_pos_int
  have hle : k * one ≤ 2 ^ 52 * one := by omega
  have hlt : -2 ^ 52 * one < (k + 1) * (one : Int) := by omega
  have := Int.le_of_mul_le_mul_right hle hone
  have := Int.lt_of_mul_lt_mul_right hlt (Int.le_of_lt hone)
  omega

/-- Rounding down gives the last whole number that is not above. -/
theorem isInt_floor (hx : x.units.natAbs ≤ 2 ^ 52 * one) :
    ∃ k : Int, x.floor.IsInt k ∧ k.natAbs ≤ 2 ^ 52 ∧ k * one ≤ x.units ∧
      x.units < (k + 1) * one := by
  have hone := one_pos_int
  have hlow := Int.ediv_mul_le x.units (Int.ne_of_gt hone)
  have hhigh := Int.lt_ediv_add_one_mul_self x.units hone
  have hk := natAbs_le_of_units hx hlow hhigh
  refine ⟨x.units / one, ?_, hk, hlow, hhigh⟩
  by_cases hwhole : x.isWhole = true
  · obtain ⟨k, hint⟩ := exists_isInt hwhole
    rw [hint.floor, show x.units / one = k by rw [hint, Int.mul_ediv_cancel _ (Int.ne_of_gt hone)]]
    exact hint
  · rw [Binary64.floor, if_neg hwhole, Int.fdiv_eq_ediv_of_nonneg _ (Int.le_of_lt hone)]
    refine (isInt_ofInt (by omega)).signed (fun hneg => ?_) fun hpos => ?_
    · exact Int.ediv_nonpos_of_nonpos_of_neg (units_nonpos hneg) hone
    · exact Int.ediv_nonneg (units_nonneg hpos) (Int.le_of_lt hone)

/-- Rounding up gives the first whole number that is not below. -/
theorem isInt_ceil (hx : x.units.natAbs ≤ 2 ^ 52 * one) :
    ∃ k : Int, x.ceil.IsInt k ∧ k.natAbs ≤ 2 ^ 52 ∧ (k + -1) * one < x.units ∧
      x.units ≤ k * one := by
  have hone := one_pos_int
  have hlow := Int.ediv_mul_le (-x.units) (Int.ne_of_gt hone)
  have hhigh := Int.lt_ediv_add_one_mul_self (-x.units) hone
  have hk : (-x.units / one).natAbs ≤ 2 ^ 52 := by
    refine natAbs_le_of_units (x := x.negate) ?_ ?_ ?_ <;> rw [units_negate]
    · rwa [Int.natAbs_neg]
    · exact hlow
    · exact hhigh
  have hbehind : (-(-x.units / one) + -1) * one < x.units := by
    rw [← neg_add, neg_mul]
    omega
  have hbefore : x.units ≤ -(-x.units / one) * one := by
    rw [neg_mul]
    omega
  refine ⟨-(-x.units / one), ?_, by rwa [Int.natAbs_neg], hbehind, hbefore⟩
  by_cases hwhole : x.isWhole = true
  · obtain ⟨k, hint⟩ := exists_isInt hwhole
    have hdiv : -x.units / one = -k := by
      rw [hint, ← neg_mul, Int.mul_ediv_cancel _ (Int.ne_of_gt hone)]
    rw [hint.ceil, hdiv, neg_neg]
    exact hint
  · rw [Binary64.ceil, if_neg hwhole, Int.fdiv_eq_ediv_of_nonneg _ (Int.le_of_lt hone)]
    refine (isInt_ofInt (by omega)).signed (fun hneg => ?_) fun hpos => ?_
    · have := units_nonpos hneg
      have := Int.ediv_nonneg (a := -x.units) (by omega) (Int.le_of_lt hone)
      omega
    · have := units_nonneg hpos
      have := Int.ediv_nonpos_of_nonpos_of_neg (n := -x.units) (by omega) hone
      omega

/-! ## Reading whole numbers -/

/-- Reading a decimal leaves its sign as it is. -/
theorem ofDecimal?_sign (negative : Bool) (d : Decimal) :
    ofDecimal? negative d = (ofDecimal? false d).map fun x => { x with negative } := by
  unfold ofDecimal? ofUnits?
  simp only
  split
  · rfl
  split
  · rfl
  split <;> rfl

/-- A whole number that fits a word is below the end of all doubles. -/
theorem nearest_word {n : Nat} (h : n < 2 ^ 64) : nearest (n * one) 1 < 2047 * binade := by
  by_contra hbeyond
  have htop : 2 * (2 ^ 64 * one) < unitsOf (2047 * binade) := by decide +kernel
  have hword : n * one ≤ 2 ^ 64 * one := Nat.mul_le_mul_right _ (Nat.le_of_lt h)
  have hplace := unitsOf_mono (Nat.le_of_not_lt hbeyond)
  rcases nearest_lower (n * one) Nat.one_pos with hlower | hzero
  · omega
  · rw [hzero] at hbeyond
    exact hbeyond (by decide)

/-- A whole number that fits a word is read as a double. -/
theorem exists_ofDecimal?_word (negative : Bool) {n : Nat} (h : n < 2 ^ 64) :
    ∃ x, ofDecimal? negative ⟨n, 0⟩ = some x := by
  by_cases hn : n = 0
  · exact ⟨{ zero with negative }, by simp [ofDecimal?, hn]⟩
  have hcount : digitCount n ≤ 20 := by
    by_contra hlong
    have hlow := pow_digitCount_le (Nat.pos_of_ne_zero hn)
    have hpow : 10 ^ 20 ≤ 10 ^ (digitCount n - 1) := Nat.pow_le_pow_right (by decide) (by omega)
    omega
  have hratio : Decimal.ratio ⟨n, 0⟩ = (n * one, 1) := by simp [Decimal.ratio]
  refine ⟨⟨negative, _, nearest_word h⟩, ?_⟩
  unfold ofDecimal?
  simp only [hratio]
  rw [if_neg (by omega), if_neg (by omega), ofUnits?, dif_pos (nearest_word h)]

/-- A whole number is read as the double that it is brought to. -/
theorem units_ofDecimal? {negative : Bool} {n : Nat} {x : Binary64}
    (h : ofDecimal? negative ⟨n, 0⟩ = some x) :
    x.units = (ofInt (if negative then -(n : Int) else n)).units := by
  by_cases hn : n = 0
  · obtain rfl : { zero with negative } = x := by simpa [ofDecimal?, hn] using h
    subst hn
    cases negative <;> decide +kernel
  have hratio : Decimal.ratio ⟨n, 0⟩ = (n * one, 1) := by simp [Decimal.ratio]
  have hunits : ofUnits? negative (n * one) 1 = some x := by
    unfold ofDecimal? at h
    simp only [hratio] at h
    rw [if_neg (by omega)] at h
    split at h
    · cases h
    · exact h
  have hpos : 0 < (n : Int) * one := Int.mul_pos (by omega) one_pos_int
  have hround : ofInt (if negative then -(n : Int) else n) = ofUnits negative (n * one) 1 := by
    have hsize : ((n : Int) * one).natAbs = n * one := by
      rw [Int.natAbs_mul, Int.natAbs_natCast, Int.natAbs_natCast]
    cases negative
    case false =>
      rw [if_neg Bool.false_ne_true, ofInt, ofSignedUnits, hsize, decide_eq_false (by omega)]
    case true =>
      rw [if_pos rfl, ofInt, ofSignedUnits, Int.neg_mul, Int.natAbs_neg, hsize,
        decide_eq_true (by omega)]
  rw [hround, ofUnits, hunits, Option.getD_some]

end HttpContract.Binary64
