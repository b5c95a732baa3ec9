import HttpContract.Proofs.Binary64.Rounding
import Mathlib.Algebra.Order.Field.Power
import Mathlib.Data.Rat.Cast.Order
import Mathlib.Tactic.FieldSimp
import Mathlib.Tactic.NormNum
import Mathlib.Tactic.Positivity

/-!
# Binary64 — the shortest decimal reads back

Seventeen digits always suffice: the decimals of that length lie so close together that one of the
two neighbours of a double is within the half steps around it (`hit?_seventeen`). The search for
fewer digits keeps to decimals that read back, and trimming zeros keeps the value, so the decimal
that is written is read as the double that it was written for (`nearest_shortest`,
`ofDecimal?_of_value`).
-/

namespace HttpContract.Binary64

/-- How a unit and the greatest double compare with powers of ten. -/
theorem one_bounds : 0 < one ∧ 2 * one < 10 ^ 331 ∧ one ≤ Nat.pow 10 330
    ∧ unitsOf (2047 * binade) < 10 ^ 310 * one := by decide +kernel

theorem one_pos : 0 < one := one_bounds.1

/-- Numbers below `10 ^ -331` are below half a unit. -/
theorem two_mul_one_lt : 2 * one < 10 ^ 331 := one_bounds.2.1

theorem one_le_pow : one ≤ Nat.pow 10 330 := one_bounds.2.2.1

/-- Numbers from `10 ^ 310` upwards are above all doubles. -/
theorem unitsOf_lt_pow : unitsOf (2047 * binade) < 10 ^ 310 * one := one_bounds.2.2.2

-- the value of a unit is a number of 1075 binary digits, which nothing below should compute
attribute [local irreducible] one

/-! ## The value of a decimal -/

/-- The number that a decimal denotes. -/
def Decimal.value (d : Decimal) : ℚ := d.digits * 10 ^ d.exponent

/-- The distance of neighbours on the grid with last digit at a place, as a quotient of units. -/
def gridStep (place : Int) : Nat × Nat :=
  if place < 0 then (one, 10 ^ (-place).toNat) else (10 ^ place.toNat * one, 1)

theorem gridStep_pos (place : Int) : 0 < (gridStep place).1 ∧ 0 < (gridStep place).2 := by
  have h1 := one_pos
  unfold gridStep
  split
  · exact ⟨h1, Nat.pow_pos (by decide)⟩
  · exact ⟨Nat.mul_pos (Nat.pow_pos (by decide)) h1, Nat.one_pos⟩

theorem Decimal.ratio_eq (d : Decimal) :
    d.ratio = (d.digits * (gridStep d.exponent).1, (gridStep d.exponent).2) := by
  unfold Decimal.ratio gridStep
  split <;> simp [Nat.mul_assoc]

theorem Decimal.ratio_den_pos (d : Decimal) : 0 < d.ratio.2 := by
  rw [d.ratio_eq]
  exact (gridStep_pos d.exponent).2

theorem gridStep_value (place : Int) :
    ((gridStep place).1 : ℚ) / (gridStep place).2 = 10 ^ place * one := by
  unfold gridStep
  split
  · rename_i h
    obtain ⟨n, rfl⟩ : ∃ n : Nat, place = -(n : Int) := ⟨(-place).toNat, by omega⟩
    simp only [Int.neg_neg, Int.toNat_natCast, zpow_neg, zpow_natCast, Nat.cast_pow,
      Nat.cast_ofNat]
    rw [div_eq_mul_inv, mul_comm]
  · rename_i h
    obtain ⟨n, rfl⟩ : ∃ n : Nat, place = (n : Int) := ⟨place.toNat, by omega⟩
    simp

theorem Decimal.ratio_value (d : Decimal) : (d.ratio.1 : ℚ) / d.ratio.2 = d.value * one := by
  rw [d.ratio_eq]
  push_cast
  rw [mul_div_assoc, gridStep_value, Decimal.value, mul_assoc]

/-- Two decimals of one value are rounded alike. -/
theorem nearest_ratio_congr {d d' : Decimal} (h : d.value = d'.value) :
    nearest d.ratio.1 d.ratio.2 = nearest d'.ratio.1 d'.ratio.2 := by
  have h1 := d.ratio_den_pos
  have h2 := d'.ratio_den_pos
  apply nearest_congr h1 h2
  have hq : (d.ratio.1 : ℚ) / d.ratio.2 = d'.ratio.1 / d'.ratio.2 := by
    rw [d.ratio_value, d'.ratio_value, h]
  rw [div_eq_div_iff (by exact_mod_cast h1.ne') (by exact_mod_cast h2.ne')] at hq
  exact_mod_cast hq

/-- Zeros at the end of the digits stand for a greater exponent. -/
theorem Decimal.value_mul_pow (k n : Nat) (e : Int) :
    Decimal.value ⟨k * 10 ^ n, e⟩ = Decimal.value ⟨k, e + n⟩ := by
  unfold Decimal.value
  rw [zpow_add₀ (by norm_num), zpow_natCast]
  push_cast
  ring

theorem Decimal.value_trim (d : Decimal) (fuel : Nat) : (d.trim fuel).value = d.value := by
  induction fuel generalizing d with
  | zero => rfl
  | succ fuel ih =>
    rw [Decimal.trim]
    split
    · rename_i h
      have hd : d.digits = d.digits / 10 * 10 ^ 1 := by omega
      calc (Decimal.trim ⟨d.digits / 10, d.exponent + 1⟩ fuel).value
          = Decimal.value ⟨d.digits / 10, d.exponent + (1 : Nat)⟩ := ih _
        _ = Decimal.value ⟨d.digits / 10 * 10 ^ 1, d.exponent⟩ := (value_mul_pow _ _ _).symm
        _ = d.value := by rw [← hd]
    · rfl

/-! ## Counting digits -/

theorem digitCount_pos (n : Nat) : 0 < digitCount n := Nat.length_toDigits_pos

theorem lt_pow_digitCount (n : Nat) : n < 10 ^ digitCount n :=
  (Nat.length_toDigits_le_iff (by decide) (digitCount_pos n)).mp (Nat.le_refl _)

theorem pow_digitCount_le {n : Nat} (hn : 0 < n) : 10 ^ (digitCount n - 1) ≤ n := by
  by_cases h1 : digitCount n = 1
  · rw [h1]
    exact hn
  · have hpos := digitCount_pos n
    by_contra hlt
    have : digitCount n ≤ digitCount n - 1 :=
      (Nat.length_toDigits_le_iff (by decide) (show 0 < digitCount n - 1 by omega)).mpr
        (Nat.lt_of_not_le hlt)
    omega

/-! ## Seventeen digits suffice -/

theorem gridBelow_bounds (v : Nat) (place : Int) :
    gridBelow v place * (gridStep place).1 ≤ v * (gridStep place).2
      ∧ v * (gridStep place).2 < (gridBelow v place + 1) * (gridStep place).1 := by
  have key : ∀ num den : Nat, 0 < den → num / den * den ≤ num ∧ num < (num / den + 1) * den :=
    fun num den h => ⟨Nat.div_mul_le_self num den, by
      rw [Nat.mul_comm]
      exact Nat.lt_mul_div_succ num h⟩
  have hpos := (gridStep_pos place).1
  unfold gridBelow gridStep at *
  simp only [Nat.pow_eq] at *
  split
  · rename_i h
    rw [if_pos h] at hpos
    exact key _ _ hpos
  · rename_i h
    rw [if_neg h] at hpos
    simpa using key v _ hpos

/-- A number of units that has `c` digits when counted in `10 ^ -w` is `10 ^ 16` steps of the grid
that ends at the seventeenth digit. -/
theorem gridStep_mul_le {v c w : Nat} (hc : 0 < c) (h : 10 ^ (c - 1) * one ≤ v * 10 ^ w) :
    (gridStep ((c : Int) - 1 - w - 16)).1 * 10 ^ 16
      ≤ v * (gridStep ((c : Int) - 1 - w - 16)).2 := by
  apply Nat.le_of_mul_le_mul_right _ (Nat.pow_pos (n := w) (show 0 < 10 by decide))
  unfold gridStep
  split
  · obtain ⟨k, hk, hsum⟩ : ∃ k, (-((c : Int) - 1 - w - 16)).toNat = k ∧ c - 1 + k = 16 + w :=
      ⟨_, rfl, by omega⟩
    have hsplit : 10 ^ (c - 1) * 10 ^ k = 10 ^ 16 * 10 ^ w := by
      rw [← Nat.pow_add, ← Nat.pow_add, hsum]
    rw [hk]
    calc one * 10 ^ 16 * 10 ^ w = 10 ^ (c - 1) * one * 10 ^ k := by
          rw [Nat.mul_assoc, ← hsplit]
          ring
      _ ≤ v * 10 ^ w * 10 ^ k := Nat.mul_le_mul_right _ h
      _ = v * 10 ^ k * 10 ^ w := by ring
  · obtain ⟨k, hk, hsum⟩ : ∃ k, ((c : Int) - 1 - w - 16).toNat = k ∧ c - 1 = k + 16 + w :=
      ⟨_, rfl, by omega⟩
    have hsplit : 10 ^ (c - 1) = 10 ^ k * 10 ^ 16 * 10 ^ w := by
      rw [← Nat.pow_add, ← Nat.pow_add, hsum]
    rw [hk]
    calc 10 ^ k * one * 10 ^ 16 * 10 ^ w = 10 ^ (c - 1) * one := by
          rw [hsplit]
          ring
      _ ≤ v * 10 ^ w := h
      _ = v * 1 * 10 ^ w := by ring

/-- The last of seventeen digits counts at most a part in `10 ^ 16` of the whole. -/
theorem gridStep_leadingPlace {v : Nat} (hv : 0 < v) :
    (gridStep (leadingPlace v + 1 - (17 : Nat))).1 * 10 ^ 16
      ≤ v * (gridStep (leadingPlace v + 1 - (17 : Nat))).2 := by
  have hplace : leadingPlace v + 1 - ((17 : Nat) : Int)
      = (digitCount (v * Nat.pow 10 330 / one) : Int) - 1 - (330 : Nat) - 16 := by
    unfold leadingPlace
    omega
  rw [hplace]
  have hn : 0 < v * Nat.pow 10 330 / one :=
    Nat.div_pos (one_le_pow.trans (Nat.le_mul_of_pos_left (Nat.pow 10 330) hv)) one_pos
  exact gridStep_mul_le (digitCount_pos _)
    ((Nat.le_div_iff_mul_le one_pos).mp (pow_digitCount_le hn))

/-- On a grid whose step is a part in `10 ^ 16` of a double, one of the neighbours of the double is
read as the double. -/
theorem readsAs_neighbour {m : Nat} (hm : 0 < m) (place : Int)
    (hstep : (gridStep place).1 * 10 ^ 16 ≤ unitsOf m * (gridStep place).2) :
    readsAs m ⟨gridBelow (unitsOf m) place, place⟩ = true
      ∨ readsAs m ⟨gridBelow (unitsOf m) place + 1, place⟩ = true := by
  have hden := (gridStep_pos place).2
  obtain ⟨hbelow, habove⟩ := gridBelow_bounds (unitsOf m) place
  simp only [readsAs, Decimal.ratio_eq, beq_iff_eq]
  generalize gridBelow (unitsOf m) place = k at *
  generalize (gridStep place).1 = a at *
  generalize (gridStep place).2 = b at *
  have hup : unitsOf (m + 1) = unitsOf m + gap m := unitsOf_succ m
  have hdown : unitsOf (m - 1) + gap (m - 1) = unitsOf m := by
    rw [← unitsOf_succ, Nat.sub_add_cancel hm]
  -- the step is below a whole gap, and below half a gap at a power of two
  have hgap : 10 ^ 16 * a < 2 * binade * (gap m * b) := by
    have := Nat.mul_lt_mul_of_pos_right (unitsOf_lt_gap m) hden
    rw [Nat.mul_assoc] at this
    omega
  have hroom : 2 * a < gap m * b + gap (m - 1) * b := by
    rcases gap_pred m with h | ⟨h, hv⟩
    · rw [← h]
      unfold binade at hgap
      omega
    · rw [hv, h] at hstep
      have e1 : binade * (2 * gap (m - 1)) * b = 2 * binade * (gap (m - 1) * b) := by ring
      have e2 : gap m * b = 2 * (gap (m - 1) * b) := by rw [h]; ring
      unfold binade at *
      omega
  rw [Nat.add_mul, Nat.one_mul] at habove
  -- the neighbour above reads back, or it is so far off that the one below is near
  by_cases hnear : 2 * (k * a + a) < (unitsOf m + unitsOf (m + 1)) * b
  · right
    rw [Nat.add_mul, Nat.one_mul]
    refine nearest_eq hden hm ?_ hnear
    calc (unitsOf (m - 1) + unitsOf m) * b ≤ (unitsOf m + unitsOf m) * b :=
          Nat.mul_le_mul_right _ (by omega)
      _ = 2 * (unitsOf m * b) := by ring
      _ < 2 * (k * a + a) := by omega
  · left
    have e1 : (unitsOf m + unitsOf (m + 1)) * b = 2 * (unitsOf m * b) + gap m * b := by
      rw [hup]; ring
    have e2 : (unitsOf (m - 1) + unitsOf m) * b + gap (m - 1) * b = 2 * (unitsOf m * b) := by
      rw [← hdown]; ring
    have hg : 0 < gap m * b := Nat.mul_pos (gap_pos m) hden
    exact nearest_eq hden hm (by omega) (by omega)

/-- A grid on which a neighbour reads back is a hit. -/
theorem hit?_isSome {m v : Nat} {leading place : Int} {n : Nat}
    (hplace : leading + 1 - (n : Int) = place)
    (h : readsAs m ⟨gridBelow v place, place⟩ = true
      ∨ readsAs m ⟨gridBelow v place + 1, place⟩ = true) : (hit? m v leading n).isSome := by
  unfold hit?
  simp only [hplace]
  split
  · split <;> rfl
  · rename_i hbelow
    rw [if_pos (h.resolve_left hbelow)]
    rfl

theorem hit?_seventeen {m : Nat} (hm : 0 < m) :
    (hit? m (unitsOf m) (leadingPlace (unitsOf m)) 17).isSome :=
  hit?_isSome rfl (readsAs_neighbour hm _ (gridStep_leadingPlace (unitsOf_pos hm)))

/-! ## The decimal that is written -/

theorem nearerOf_eq (v below : Nat) (place : Int) :
    nearerOf v below place = below ∨ nearerOf v below place = below + 1 := by
  unfold nearerOf
  simp only
  split
  · exact .inl rfl
  split
  · exact .inr rfl
  split
  · exact .inl rfl
  · exact .inr rfl

/-- The search takes only what reads back. -/
theorem hit?_readsAs {m v : Nat} {leading : Int} {n : Nat} {d : Decimal}
    (h : hit? m v leading n = some d) : readsAs m d = true := by
  unfold hit? at h
  simp only at h
  generalize leading + 1 - (n : Int) = place at h
  have hn := nearerOf_eq v (gridBelow v place) place
  generalize nearerOf v (gridBelow v place) place = k at h hn
  split at h
  · rename_i hbelow
    split at h
    · rename_i habove
      cases h
      rcases hn with rfl | rfl
      · exact hbelow
      · exact habove
    · cases h
      exact hbelow
  · split at h
    · rename_i habove
      cases h
      exact habove
    · cases h

/-- The shortest decimal of a double is read as that double. -/
theorem nearest_shortest (x : Binary64) (hx : 0 < x.magnitude) :
    nearest x.shortest.ratio.1 x.shortest.ratio.2 = x.magnitude := by
  unfold shortest
  rw [if_neg hx.ne']
  simp only
  split
  · rename_i d hd
    obtain ⟨n, -, hn⟩ := List.exists_of_findSome?_eq_some hd
    rw [nearest_ratio_congr (d.value_trim 20)]
    simpa [readsAs] using hit?_readsAs hn
  · rename_i hnone
    -- the search does not come back empty: seventeen digits are a hit
    have h17 := List.findSome?_eq_none_iff.mp hnone 17 (by decide)
    have := hit?_seventeen hx
    rw [h17] at this
    cases this

/-! ## Reading it -/

/-- Where the first digit of a decimal stands. -/
theorem Decimal.value_bounds {d : Decimal} (hd : 0 < d.digits) :
    (10 : ℚ) ^ (d.exponent + digitCount d.digits - 1) ≤ d.value
      ∧ d.value < 10 ^ (d.exponent + digitCount d.digits) := by
  have hc := digitCount_pos d.digits
  have hup := lt_pow_digitCount d.digits
  have hlow := pow_digitCount_le hd
  have hpos : (0 : ℚ) < 10 ^ d.exponent := by positivity
  generalize digitCount d.digits = c at *
  unfold Decimal.value
  constructor
  · rw [show d.exponent + (c : Int) - 1 = ((c - 1 : Nat) : Int) + d.exponent from by omega,
      zpow_add₀ (by norm_num), zpow_natCast]
    exact mul_le_mul_of_nonneg_right (by exact_mod_cast hlow) hpos.le
  · rw [add_comm, zpow_add₀ (by norm_num), zpow_natCast]
    exact mul_lt_mul_of_pos_right (by exact_mod_cast hup) hpos

/-- A decimal that rounds to a positive double is at least half a unit. -/
theorem half_le_of_nearest {d : Decimal} {m : Nat} (hm : 0 < m)
    (h : nearest d.ratio.1 d.ratio.2 = m) : 1 / 2 ≤ d.value * one := by
  have hden := d.ratio_den_pos
  have hlower : d.ratio.2 ≤ 2 * d.ratio.1 := by
    rcases nearest_lower d.ratio.1 hden with hl | hl
    · rw [h] at hl
      have hu := unitsOf_pos hm
      calc d.ratio.2 = 1 * d.ratio.2 := (Nat.one_mul _).symm
        _ ≤ (unitsOf (m - 1) + unitsOf m) * d.ratio.2 := Nat.mul_le_mul_right _ (by omega)
        _ ≤ 2 * d.ratio.1 := hl
    · omega
  have hlowerq : (d.ratio.2 : ℚ) ≤ 2 * d.ratio.1 := by exact_mod_cast hlower
  rw [← d.ratio_value, div_le_div_iff₀ (by norm_num) (by exact_mod_cast hden)]
  linarith

/-- A decimal that rounds to a finite double is not above the end of all doubles. -/
theorem le_top_of_nearest {d : Decimal} {m : Nat} (hfin : m < 2047 * binade)
    (h : nearest d.ratio.1 d.ratio.2 = m) : d.value * one ≤ unitsOf (2047 * binade) := by
  have hden := d.ratio_den_pos
  have hupper : d.ratio.1 ≤ unitsOf (2047 * binade) * d.ratio.2 := by
    have hu := nearest_upper d.ratio.1 hden
    rw [h] at hu
    have h1 := unitsOf_mono (show m ≤ 2047 * binade by omega)
    have h2 := unitsOf_mono (show m + 1 ≤ 2047 * binade by omega)
    have := Nat.le_trans hu (Nat.mul_le_mul_right d.ratio.2 (Nat.add_le_add h1 h2))
    rw [Nat.add_mul] at this
    omega
  rw [← d.ratio_value, div_le_iff₀ (by exact_mod_cast hden)]
  exact_mod_cast hupper

/-- A decimal that rounds to a positive finite double is read as it, being neither too great nor too
small to be looked at. -/
theorem ofDecimal?_of_nearest (negative : Bool) {d : Decimal} {m : Nat} (hm : 0 < m)
    (hfin : m < 2047 * binade) (h : nearest d.ratio.1 d.ratio.2 = m) :
    ofDecimal? negative d = some ⟨negative, m, hfin⟩ := by
  have hone : (0 : ℚ) < one := by exact_mod_cast one_pos
  have hlow := half_le_of_nearest hm h
  have hhigh := le_top_of_nearest hfin h
  have hdigits : 0 < d.digits := by
    by_contra h0
    have : d.value = 0 := by simp [Decimal.value, show d.digits = 0 by omega]
    rw [this] at hlow
    norm_num at hlow
  obtain ⟨hplow, hpup⟩ := Decimal.value_bounds hdigits
  -- so far behind the point a decimal is below half a unit, and would round to zero
  have hsmall : ¬ (d.exponent + digitCount d.digits < -330) := by
    intro hlt
    have hz : d.value ≤ 10 ^ (-(331 : Nat) : Int) :=
      hpup.le.trans (zpow_le_zpow_right₀ (by norm_num) (by omega))
    rw [zpow_neg, zpow_natCast] at hz
    have hunit : (2 : ℚ) * one < 10 ^ 331 := by exact_mod_cast two_mul_one_lt
    have hpow : (0 : ℚ) < 10 ^ 331 := by positivity
    generalize (10 : ℚ) ^ 331 = p at *
    have hmul : d.value * one ≤ p⁻¹ * one := mul_le_mul_of_nonneg_right hz hone.le
    have hlt : p⁻¹ * one < 1 / 2 := by
      rw [inv_mul_lt_iff₀ hpow]
      linarith
    linarith
  -- so far before the point a decimal is above all doubles, and would not round to one
  have hlarge : ¬ (310 < d.exponent + digitCount d.digits) := by
    intro hlt
    have hz : 10 ^ ((310 : Nat) : Int) ≤ d.value :=
      (zpow_le_zpow_right₀ (by norm_num) (by omega)).trans hplow
    rw [zpow_natCast] at hz
    have htop : (unitsOf (2047 * binade) : ℚ) < 10 ^ 310 * one := by
      exact_mod_cast unitsOf_lt_pow
    have hmul : (10 : ℚ) ^ 310 * one ≤ d.value * one := mul_le_mul_of_nonneg_right hz hone.le
    exact absurd (hmul.trans hhigh) (not_le_of_gt htop)
  unfold ofDecimal?
  simp only
  rw [if_neg (by omega), if_neg (by omega)]
  simp [ofUnits?, h, hfin]

/-- Every decimal with the value of the written one is read as the double. -/
theorem ofDecimal?_of_value (negative : Bool) (x : Binary64) {d : Decimal}
    (h : d.value = x.shortest.value) :
    ofDecimal? negative d = some { x with negative } := by
  by_cases hx : x.magnitude = 0
  · have h0 : d.value = 0 := by
      rw [h]
      simp [shortest, hx, Decimal.value]
    have hd : d.digits = 0 := by
      have : (10 : ℚ) ^ d.exponent ≠ 0 := by positivity
      simpa [Decimal.value, this] using h0
    simp [ofDecimal?, hd, zero, hx]
  · have hpos : 0 < x.magnitude := by omega
    exact ofDecimal?_of_nearest negative hpos x.finite
      ((nearest_ratio_congr h).trans (nearest_shortest x hpos))

end HttpContract.Binary64
