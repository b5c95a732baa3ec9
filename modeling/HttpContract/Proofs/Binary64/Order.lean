import HttpContract.Proofs.Binary64.Whole

/-!
# Binary64 — rounding keeps the order

Rounding to the nearest double never turns two numbers around (`ofSignedUnits_mono`) and leaves
every double as it is (`ofSignedUnits_units`), so a rounded number stays on its side of any double.
From `2 ^ 52` on all doubles are whole (`isWhole_of_large`), and so a whole number that is rounded
is still whole, however large it is (`isWhole_ofInt`). With that the whole numbers around a double
are known without a limit on its size (`exists_floor`, `exists_ceil`), and a double that is cut off
at the end of the signed words is rounded back to itself (`ofInt_toWord`).
-/

namespace HttpContract.Binary64

/-! ## Rounding -/

theorem nearest_mono {i j den : Nat} (hden : 0 < den) (h : i ≤ j) :
    nearest i den ≤ nearest j den := by
  by_contra hlt
  -- the middle of the step before the greater place is not below that of the step behind the other
  have hlow := unitsOf_mono (show nearest j den ≤ nearest i den - 1 by omega)
  have hhigh := unitsOf_mono (show nearest j den + 1 ≤ nearest i den by omega)
  have hmiddles := Nat.mul_le_mul_right den (Nat.add_le_add hlow hhigh)
  have hupper := nearest_upper j hden
  rcases nearest_lower i hden with hlower | hzero
  · have hsame : i = j := by omega
    subst hsame
    omega
  · omega

/-- The size of the double nearest to `num / den` units. -/
def rounded (num den : Nat) : Nat := unitsOf (min (nearest num den) (2047 * binade - 1))

theorem rounded_mono {i j den : Nat} (hden : 0 < den) (h : i ≤ j) :
    rounded i den ≤ rounded j den :=
  unitsOf_mono (Nat.le_min_of_le_of_le (Nat.le_trans (Nat.min_le_left ..) (nearest_mono hden h))
    (Nat.min_le_right ..))

theorem rounded_unitsOf {m : Nat} (h : m < 2047 * binade) : rounded (unitsOf m) 1 = unitsOf m := by
  rw [rounded, nearest_unitsOf, Nat.min_eq_left (by omega)]

theorem units_ofSignedUnits (i : Int) (den : Nat) :
    (ofSignedUnits i den).units
      = if i < 0 then -(rounded i.natAbs den : Int) else rounded i.natAbs den := by
  unfold ofSignedUnits ofUnits ofUnits? rounded
  simp only
  split
  case isTrue hfinite =>
    rw [Nat.min_eq_left (by omega)]
    simp only [Option.getD_some, units, decide_eq_true_eq]
  case isFalse hbeyond =>
    rw [Nat.min_eq_right (by omega)]
    simp only [Option.getD_none, units, greatest, decide_eq_true_eq]

/-- The greater of two numbers is not rounded to the smaller double. -/
theorem ofSignedUnits_mono {i j : Int} {den : Nat} (hden : 0 < den) (h : i ≤ j) :
    (ofSignedUnits i den).units ≤ (ofSignedUnits j den).units := by
  rw [units_ofSignedUnits, units_ofSignedUnits]
  by_cases hi : i < 0
  · by_cases hj : j < 0
    · have hsize := rounded_mono hden (show j.natAbs ≤ i.natAbs by omega)
      rw [if_pos hi, if_pos hj]
      omega
    · rw [if_pos hi, if_neg hj]
      omega
  · have hsize := rounded_mono hden (show i.natAbs ≤ j.natAbs by omega)
    rw [if_neg hi, if_neg (by omega)]
    omega

/-- A double is the one nearest to itself. -/
theorem ofSignedUnits_units (x : Binary64) : (ofSignedUnits x.units 1).units = x.units := by
  rw [units_ofSignedUnits, ← unitsOf_magnitude, rounded_unitsOf x.finite]
  have habs := unitsOf_magnitude x
  split <;> omega

theorem units_ofSignedUnits_neg (i : Int) :
    (ofSignedUnits (-i) 1).units = -(ofSignedUnits i 1).units := by
  have hzero : rounded 0 1 = 0 := by
    rw [← unitsOf_zero, rounded_unitsOf (by decide), unitsOf_zero]
  rw [units_ofSignedUnits, units_ofSignedUnits, Int.natAbs_neg]
  rcases Int.lt_trichotomy i 0 with hneg | rfl | hpos
  · rw [if_neg (by omega), if_pos hneg, Int.neg_neg]
  · rw [Int.natAbs_zero, hzero]
    rfl
  · rw [if_pos (by omega), if_neg (by omega)]

theorem ofInt_mono {j k : Int} (h : j ≤ k) : (ofInt j).units ≤ (ofInt k).units :=
  ofSignedUnits_mono Nat.one_pos
    (Int.mul_le_mul_of_nonneg_right h (Int.le_of_lt one_pos_int))

theorem IsInt.ofInt {x : Binary64} {k : Int} (h : x.IsInt k) :
    (Binary64.ofInt k).units = x.units := by
  rw [Binary64.ofInt, ← show x.units = k * one from h, ofSignedUnits_units]

/-- A whole number above a double of less than `2 ^ 53` stays above it when it is rounded. -/
theorem lt_ofInt {x : Binary64} {n : Int} (hx : x.units.natAbs < 2 ^ 53 * one)
    (h : x.units < n * one) : x.units < (ofInt n).units := by
  by_cases hn : n.natAbs ≤ 2 ^ 53
  · rw [isInt_ofInt hn]
    exact h
  · have hbelow : -2 ^ 53 < n :=
      (Int.mul_lt_mul_right one_pos_int).mp (show -2 ^ 53 * one < n * one by omega)
    have hfirst : (ofInt (2 ^ 53)).IsInt (2 ^ 53) := isInt_ofInt (by decide)
    have hmono := ofInt_mono (show 2 ^ 53 ≤ n by omega)
    rw [hfirst] at hmono
    omega

theorem units_ofInt_neg (n : Int) : (ofInt (-n)).units = -(ofInt n).units := by
  rw [ofInt, Int.neg_mul, units_ofSignedUnits_neg, ← ofInt]

theorem ofInt_lt {x : Binary64} {n : Int} (hx : x.units.natAbs < 2 ^ 53 * one)
    (h : n * one < x.units) : (ofInt n).units < x.units := by
  have hflip : x.negate.units < (ofInt (-n)).units := by
    apply lt_ofInt
    · rwa [units_negate, Int.natAbs_neg]
    · rw [units_negate, Int.neg_mul]
      omega
  rw [units_negate, units_ofInt_neg] at hflip
  omega

theorem units_add (x y : Binary64) :
    (x.add y).units = (ofSignedUnits (x.units + y.units) 1).units := by
  unfold Binary64.add
  simp only
  split
  case isTrue hzero =>
    rw [hzero]
    cases x.negative && y.negative <;> decide
  case isFalse => rfl

/-! ## Order -/

@[simp]
theorem units_larger (x y : Binary64) : (x.larger y).units = max x.units y.units := by
  unfold larger less
  split <;> simp_all only [decide_eq_true_eq] <;> omega

@[simp]
theorem units_smaller (x y : Binary64) : (x.smaller y).units = min x.units y.units := by
  unfold smaller less
  split <;> simp_all only [decide_eq_true_eq] <;> omega

theorem IsInt.less_iff {x y : Binary64} {j k : Int} (hx : x.IsInt j) (hy : y.IsInt k) :
    x.less y = true ↔ j < k := by
  rw [less, hx, hy, decide_eq_true_eq, Int.mul_lt_mul_right one_pos_int]

/-! ## Whole doubles -/

theorem isWhole_congr {x y : Binary64} (h : x.units = y.units) : x.isWhole = y.isWhole := by
  rw [isWhole, isWhole, unitsOf_magnitude, unitsOf_magnitude, h]

/-- Every double from `2 ^ 52` on is whole. -/
theorem isWhole_of_large {x : Binary64} (h : 2 ^ 52 * one ≤ x.units.natAbs) :
    x.isWhole = true := by
  rw [← unitsOf_magnitude] at h
  have hstart : unitsOf (1075 * binade) = 2 ^ 52 * one := by decide +kernel
  have hplace : 1075 * binade ≤ x.magnitude := by
    by_contra hlt
    have hstep := unitsOf_succ x.magnitude
    have hgap := gap_pos x.magnitude
    have hmono := unitsOf_mono (show x.magnitude + 1 ≤ 1075 * binade by omega)
    omega
  have hquotient : 1074 ≤ x.magnitude / binade - 1 := by
    unfold binade at *
    omega
  have hdvd : one ∣ unitsOf x.magnitude := by
    rw [unitsOf, if_neg (by unfold binade at *; omega)]
    exact Dvd.dvd.mul_left (Nat.pow_dvd_pow 2 hquotient) _
  rw [isWhole, Nat.mod_eq_zero_of_dvd hdvd]
  rfl

/-- A whole number from `2 ^ 53` on is not rounded to a smaller double. -/
theorem le_natAbs_ofInt {k : Int} (hk : 2 ^ 53 ≤ k.natAbs) :
    2 ^ 53 * one ≤ (ofInt k).units.natAbs := by
  have hfirst : (ofInt (2 ^ 53)).IsInt (2 ^ 53) := isInt_ofInt (by decide)
  have hone := one_pos_int
  rcases Int.natAbs_eq k with hpos | hneg
  · have hle := ofInt_mono (show 2 ^ 53 ≤ k by omega)
    rw [hfirst] at hle
    omega
  · have hle := ofInt_mono (show 2 ^ 53 ≤ -k by omega)
    rw [hfirst, units_ofInt_neg] at hle
    omega

/-- A whole number is rounded to a whole double, whatever its size. -/
theorem isWhole_ofInt (k : Int) : (ofInt k).isWhole = true := by
  by_cases hk : k.natAbs ≤ 2 ^ 53
  · exact (isInt_ofInt hk).isWhole
  · have hlarge := le_natAbs_ofInt (show 2 ^ 53 ≤ k.natAbs by omega)
    exact isWhole_of_large (by omega)

theorem isWhole_add {x y : Binary64} (hx : x.isWhole = true) (hy : y.isWhole = true) :
    (x.add y).isWhole = true := by
  obtain ⟨j, hj⟩ := exists_isInt hx
  obtain ⟨k, hk⟩ := exists_isInt hy
  have hunits : (x.add y).units = (ofInt (j + k)).units := by
    rw [units_add, hj, hk, ← add_mul, ofInt]
  rw [isWhole_congr hunits, isWhole_ofInt]

theorem isWhole_signed (x : Binary64) (negative : Bool) :
    ({ x with negative } : Binary64).isWhole = x.isWhole := rfl

theorem isWhole_floor (x : Binary64) : x.floor.isWhole = true := by
  rw [floor]
  split
  case isTrue h => exact h
  case isFalse => rw [isWhole_signed, isWhole_ofInt]

theorem isWhole_ceil (x : Binary64) : x.ceil.isWhole = true := by
  rw [ceil]
  split
  case isTrue h => exact h
  case isFalse => rw [isWhole_signed, isWhole_ofInt]

/-! ## Rounding to whole numbers -/

section WholeNumbers

variable (x : Binary64)

/-- Rounding down gives the last whole number that is not above. -/
theorem exists_floor : ∃ k : Int, x.floor.IsInt k ∧ ∀ n : Int, n * one ≤ x.units ↔ n ≤ k := by
  by_cases hwhole : x.isWhole = true
  · obtain ⟨k, hk⟩ := exists_isInt hwhole
    refine ⟨k, by rwa [hk.floor], fun n => ?_⟩
    rw [hk, Int.mul_le_mul_right one_pos_int]
  · have hsmall := mt isWhole_of_large hwhole
    obtain ⟨k, hk, -, hlow, hhigh⟩ := isInt_floor (x := x) (by omega)
    refine ⟨k, hk, fun n => ⟨fun h => ?_, fun h => ?_⟩⟩
    · have hlt := (Int.mul_lt_mul_right one_pos_int).mp (Int.lt_of_le_of_lt h hhigh)
      omega
    · exact Int.le_trans ((Int.mul_le_mul_right one_pos_int).mpr h) hlow

/-- Rounding up gives the first whole number that is not below. -/
theorem exists_ceil : ∃ k : Int, x.ceil.IsInt k ∧ ∀ n : Int, x.units ≤ n * one ↔ k ≤ n := by
  by_cases hwhole : x.isWhole = true
  · obtain ⟨k, hk⟩ := exists_isInt hwhole
    refine ⟨k, by rwa [hk.ceil], fun n => ?_⟩
    rw [hk, Int.mul_le_mul_right one_pos_int]
  · have hsmall := mt isWhole_of_large hwhole
    obtain ⟨k, hk, -, hlow, hhigh⟩ := isInt_ceil (x := x) (by omega)
    refine ⟨k, hk, fun n => ⟨fun h => ?_, fun h => ?_⟩⟩
    · have hlt := (Int.mul_lt_mul_right one_pos_int).mp (Int.lt_of_lt_of_le hlow h)
      omega
    · exact Int.le_trans hhigh ((Int.mul_le_mul_right one_pos_int).mpr h)

theorem floor_le : x.floor.units ≤ x.units := by
  obtain ⟨k, hk, hlast⟩ := exists_floor x
  rw [hk]
  exact (hlast k).mpr (Int.le_refl k)

theorem le_ceil : x.units ≤ x.ceil.units := by
  obtain ⟨k, hk, hfirst⟩ := exists_ceil x
  rw [hk]
  exact (hfirst k).mpr (Int.le_refl k)

/-- Rounding down and adding one gives the first whole number above, which is rounded once more. -/
theorem exists_next :
    ∃ k : Int, (x.floor.addInt 1).units = (ofInt k).units
      ∧ ∀ n : Int, x.units < n * one ↔ k ≤ n := by
  obtain ⟨k, hk, hlast⟩ := exists_floor x
  have hone : (ofInt 1).IsInt 1 := isInt_ofInt (by decide)
  refine ⟨k + 1, ?_, fun n => ?_⟩
  · rw [addInt, units_add, hk, hone, ← add_mul, ofInt]
  · rw [← Int.not_le, hlast]
    omega

/-- Rounding up and subtracting one gives the last whole number below, which is rounded once
more. -/
theorem exists_previous :
    ∃ k : Int, (x.ceil.addInt (-1)).units = (ofInt k).units
      ∧ ∀ n : Int, n * one < x.units ↔ n ≤ k := by
  obtain ⟨k, hk, hfirst⟩ := exists_ceil x
  have hone : (ofInt (-1)).IsInt (-1) := isInt_ofInt (by decide)
  refine ⟨k + -1, ?_, fun n => ?_⟩
  · rw [addInt, units_add, hk, hone, ← add_mul, ofInt]
  · rw [← Int.not_le, hfirst]
    omega

variable {x}

/-- Where doubles are not too large, the first whole number above is exact. -/
theorem isInt_next (hx : x.units.natAbs ≤ 2 ^ 52 * one) :
    ∃ k : Int, (x.floor.addInt 1).IsInt k ∧ k.natAbs ≤ 2 ^ 52 + 1
      ∧ ∀ n : Int, x.units < n * one ↔ k ≤ n := by
  obtain ⟨k, hk, hfirst⟩ := exists_next x
  have hone := one_pos_int
  have habove := (hfirst (2 ^ 52 + 1)).mp (by omega)
  have hbelow := mt (hfirst (-2 ^ 52)).mpr (by omega)
  have hint : (ofInt k).IsInt k := isInt_ofInt (by omega)
  exact ⟨k, hk.trans hint, by omega, hfirst⟩

theorem isInt_previous (hx : x.units.natAbs ≤ 2 ^ 52 * one) :
    ∃ k : Int, (x.ceil.addInt (-1)).IsInt k ∧ k.natAbs ≤ 2 ^ 52 + 1
      ∧ ∀ n : Int, n * one < x.units ↔ n ≤ k := by
  obtain ⟨k, hk, hlast⟩ := exists_previous x
  have hone := one_pos_int
  have hbelow := (hlast (-2 ^ 52 - 1)).mp (by omega)
  have habove := mt (hlast (2 ^ 52)).mpr (by omega)
  have hint : (ofInt k).IsInt k := isInt_ofInt (by omega)
  exact ⟨k, hk.trans hint, by omega, hlast⟩

end WholeNumbers

/-! ## Words -/

theorem toWord_mono {x y : Binary64} (h : x.units ≤ y.units) : x.toWord ≤ y.toWord := by
  have hdiv := Int.tdiv_le_tdiv one_pos_int h
  unfold toWord
  omega

/-- A whole double within the range of signed words, whose upper end is rounded up to `2 ^ 63`, is
the double of the word it is brought to. -/
theorem ofInt_toWord {x : Binary64} (hwhole : x.isWhole = true) (hlow : -2 ^ 63 * one ≤ x.units)
    (hhigh : x.units ≤ 2 ^ 63 * one) : (ofInt x.toWord).units = x.units := by
  obtain ⟨k, hk⟩ := exists_isInt hwhole
  have hone := one_pos_int
  rw [hk] at hlow hhigh
  have hk1 : -2 ^ 63 ≤ k := Int.le_of_mul_le_mul_right hlow hone
  have hk2 : k ≤ 2 ^ 63 := Int.le_of_mul_le_mul_right hhigh hone
  have hword : x.toWord = max (-9223372036854775808) (min 9223372036854775807 k) := by
    rw [toWord, hk, Int.mul_tdiv_cancel _ (Int.ne_of_gt hone)]
  by_cases htop : k = 2 ^ 63
  · have hlast : (ofInt 9223372036854775807).units = 2 ^ 63 * one := by decide +kernel
    rw [hword, htop, hk, htop]
    exact hlast
  · rw [hword, show max (-9223372036854775808) (min 9223372036854775807 k) = k by omega, hk.ofInt]

end HttpContract.Binary64
