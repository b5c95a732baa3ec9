import HttpContract.Binary64.Decimal
import Mathlib.Tactic.Linarith
import Mathlib.Tactic.Ring

/-!
# Binary64 — rounding to the nearest double

`unitsOf` lists the doubles from zero upwards, and `gap` is the step from one to the next, a power
of two. `nearest` goes to the place whose half steps on either side enclose the quotient
(`nearest_lower`, `nearest_upper`), and a quotient strictly between the middles of the two steps at
a place goes nowhere else (`nearest_eq`). Nothing but the value of the quotient matters
(`nearest_congr`).
-/

namespace HttpContract.Binary64

/-! ## The list of doubles -/

/-- How far the double with place `m` is from the next one, in units. -/
def gap (m : Nat) : Nat := 2 ^ (m / binade - 1)

theorem gap_pos (m : Nat) : 0 < gap m := Nat.two_pow_pos _

/-- A significand of at most 54 bits, scaled by a power of two, is found where the exponent and the
significand say. -/
theorem unitsOf_scaled {s r : Nat} (hs : s = 0 ∨ binade ≤ r) (hr : r ≤ 2 * binade) :
    unitsOf (s * binade + r) = r * 2 ^ s := by
  unfold binade at *
  unfold unitsOf
  simp only [Nat.pow_eq, binade]
  by_cases hlt : s * 4503599627370496 + r < 4503599627370496
  · have h0 : s = 0 := by omega
    subst h0
    rw [if_pos hlt]
    simp
  · rw [if_neg hlt]
    -- the end of a binade is the start of the next one, with twice the step
    by_cases htop : r = 2 * 4503599627370496
    · have hd : (s * 4503599627370496 + r) / 4503599627370496 = s + 2 := by omega
      have hm : (s * 4503599627370496 + r) % 4503599627370496 = 0 := by omega
      rw [hd, hm, htop, show s + 2 - 1 = s + 1 from rfl, Nat.pow_succ]
      ring
    · have hd : (s * 4503599627370496 + r) / 4503599627370496 = s + 1 := by omega
      have hm : 4503599627370496 + (s * 4503599627370496 + r) % 4503599627370496 = r := by omega
      rw [hd, hm, Nat.add_sub_cancel]

/-- The next double is one step further. -/
theorem unitsOf_succ (m : Nat) : unitsOf (m + 1) = unitsOf m + gap m := by
  -- a place and the one behind it have the same scale, if the end of a binade counts to it
  obtain ⟨s, r, rfl, hs, hr⟩ : ∃ s r, m = s * binade + r ∧ (s = 0 ∨ binade ≤ r)
      ∧ r < 2 * binade := by
    by_cases h : m < binade
    · exact ⟨0, m, by omega, .inl rfl, by omega⟩
    · refine ⟨m / binade - 1, binade + m % binade, ?_, .inr (by omega), ?_⟩ <;>
        unfold binade at * <;> omega
  have hg : gap (s * binade + r) = 2 ^ s := by
    unfold gap binade at *
    congr 1
    omega
  rw [Nat.add_assoc, unitsOf_scaled (by omega) (by omega), unitsOf_scaled hs (by omega), hg]
  ring

theorem unitsOf_mono {m n : Nat} (h : m ≤ n) : unitsOf m ≤ unitsOf n := by
  induction n with
  | zero => rw [Nat.le_zero.mp h]
  | succ n ih =>
    rcases Nat.eq_or_lt_of_le h with rfl | hlt
    · exact Nat.le_refl _
    · rw [unitsOf_succ]
      exact Nat.le_add_right_of_le (ih (by omega))

theorem unitsOf_pos {m : Nat} (h : 0 < m) : 0 < unitsOf m := by
  obtain ⟨n, rfl⟩ : ∃ n, m = n + 1 := ⟨m - 1, by omega⟩
  rw [unitsOf_succ]
  exact Nat.add_pos_right _ (gap_pos n)

/-- A double has at most 53 digits above its step. -/
theorem unitsOf_lt_gap (m : Nat) : unitsOf m < 2 * binade * gap m := by
  unfold unitsOf gap
  simp only [Nat.pow_eq]
  split
  · have := Nat.two_pow_pos (m / binade - 1)
    nlinarith
  · have hm : m % binade < binade := Nat.mod_lt _ (by decide)
    exact Nat.mul_lt_mul_of_pos_right (by omega) (Nat.two_pow_pos _)

/-- The step before a double is as long as the one behind it, or half as long where the double is a
power of two. -/
theorem gap_pred (m : Nat) : gap m = gap (m - 1)
    ∨ (gap m = 2 * gap (m - 1) ∧ unitsOf m = binade * gap m) := by
  unfold gap
  by_cases h : (m - 1) / binade - 1 = m / binade - 1
  · exact .inl (by rw [h])
  · right
    have hd : m / binade - 1 = (m - 1) / binade - 1 + 1 := by unfold binade at *; omega
    refine ⟨by rw [hd, Nat.pow_succ, Nat.mul_comm], ?_⟩
    have hge : ¬ m < binade := by unfold binade at *; omega
    have hm : m % binade = 0 := by unfold binade at *; omega
    simp only [unitsOf, if_neg hge, hm, Nat.pow_eq, Nat.add_zero]

/-! ## Rounding a quotient -/

/-- Rounding a quotient to a whole number is off by half a unit at most. -/
theorem roundHalfEven_bounds (num : Nat) {den : Nat} (hden : 0 < den) :
    2 * roundHalfEven num den * den ≤ 2 * num + den
      ∧ 2 * num ≤ 2 * roundHalfEven num den * den + den := by
  have hnum := Nat.div_add_mod num den
  have hmod := Nat.mod_lt num hden
  unfold roundHalfEven
  simp only
  generalize num / den = q at *
  generalize num % den = r at *
  -- the remainder is compared with half the denominator, and a tie is off by just that
  have hq : 2 * (q + 1) * den = 2 * (den * q) + 2 * den := by ring
  have hq' : 2 * q * den = 2 * (den * q) := by ring
  split
  · omega
  split
  · omega
  split <;> omega

theorem roundHalfEven_scale (num den : Nat) {k : Nat} (hk : 0 < k) :
    roundHalfEven (num * k) (den * k) = roundHalfEven num den := by
  have h1 : ∀ x : Nat, (2 * (x * k) < den * k) = (2 * x < den) := fun x => by
    rw [← Nat.mul_assoc, propext (Nat.mul_lt_mul_right hk)]
  have h2 : ∀ x : Nat, (den * k < 2 * (x * k)) = (den < 2 * x) := fun x => by
    rw [← Nat.mul_assoc, propext (Nat.mul_lt_mul_right hk)]
  simp only [roundHalfEven, Nat.mul_div_mul_right _ _ hk, Nat.mul_mod_mul_right, h1, h2]

theorem nearest_scale (num den : Nat) {k : Nat} (hk : 0 < k) :
    nearest (num * k) (den * k) = nearest num den := by
  simp only [nearest, Nat.mul_div_mul_right _ _ hk]
  rw [Nat.mul_right_comm, roundHalfEven_scale _ _ hk]

/-- The place depends on the value of the quotient alone. -/
theorem nearest_congr {num den num' den' : Nat} (hden : 0 < den) (hden' : 0 < den')
    (h : num * den' = num' * den) : nearest num den = nearest num' den' := by
  rw [← nearest_scale num den hden', ← nearest_scale num' den' hden, h, Nat.mul_comm den den']

/-- What `nearest` rounds: the quotient over a power of two, which leaves a significand of 53 bits,
or of fewer if the power is one. -/
theorem nearest_parts (num : Nat) {den : Nat} (hden : 0 < den) :
    ∃ s r, nearest num den = s * binade + r ∧ (s = 0 ∨ binade ≤ r) ∧ r ≤ 2 * binade
      ∧ 2 * r * (den * 2 ^ s) ≤ 2 * num + den * 2 ^ s
      ∧ 2 * num ≤ 2 * r * (den * 2 ^ s) + den * 2 ^ s
      ∧ (s = 0 ∨ binade * 2 ^ s * den ≤ num) ∧ num < 2 * binade * 2 ^ s * den := by
  let q := num / den
  let s := q.log2 - 52
  have hpos : 0 < den * 2 ^ s := Nat.mul_pos hden (Nat.two_pow_pos s)
  obtain ⟨hlo, hhi⟩ := roundHalfEven_bounds num hpos
  -- where something is shifted out, the quotient has 53 bits above it
  have hlow : s = 0 ∨ binade * 2 ^ s * den ≤ num := by
    by_cases h : s = 0
    · exact .inl h
    · right
      have hq0 : q ≠ 0 := by
        intro h0
        exact h (by simp [s, h0])
      have h2 : 2 ^ (52 + s) ≤ q := by
        have := Nat.log2_self_le hq0
        rwa [show q.log2 = 52 + s from by omega] at this
      rw [Nat.pow_add] at h2
      exact (Nat.le_div_iff_mul_le hden).mp h2
  have hup : num < 2 * binade * 2 ^ s * den := by
    have h2 : q < 2 ^ (53 + s) :=
      Nat.lt_of_lt_of_le Nat.lt_log2_self (Nat.pow_le_pow_right (by decide) (by omega))
    rw [Nat.pow_add] at h2
    exact (Nat.div_lt_iff_lt_mul hden).mp h2
  -- rounding off by half a step cannot leave the range of significands
  refine ⟨s, roundHalfEven num (den * 2 ^ s), rfl, ?_, ?_, hlo, hhi, hlow, hup⟩
  · rcases hlow with h | h
    · exact .inl h
    · right
      by_contra hlt
      have hr : 2 * roundHalfEven num (den * 2 ^ s) + 1 ≤ 2 * binade - 1 := by
        unfold binade at *; omega
      have := Nat.mul_le_mul_right (den * 2 ^ s) hr
      have hb : (2 * binade - 1) * (den * 2 ^ s) < 2 * (binade * 2 ^ s * den) := by
        rw [show 2 * (binade * 2 ^ s * den) = (2 * binade) * (den * 2 ^ s) from by ring]
        exact Nat.mul_lt_mul_of_pos_right (by decide) hpos
      rw [Nat.add_mul, Nat.one_mul] at this
      omega
  · by_contra hgt
    have hr : 4 * binade + 2 ≤ 2 * roundHalfEven num (den * 2 ^ s) := by unfold binade at *; omega
    have := Nat.mul_le_mul_right (den * 2 ^ s) hr
    have hb : 2 * (2 * binade * 2 ^ s * den) = 4 * binade * (den * 2 ^ s) := by ring
    rw [Nat.add_mul] at this
    omega

/-- The quotient is not below the middle of the step before its place. -/
theorem nearest_lower (num : Nat) {den : Nat} (hden : 0 < den) :
    (unitsOf (nearest num den - 1) + unitsOf (nearest num den)) * den ≤ 2 * num
      ∨ nearest num den = 0 := by
  obtain ⟨s, r, hm, hs, hr, hlo, -, hlow, -⟩ := nearest_parts num hden
  rw [hm, unitsOf_scaled hs hr]
  by_cases h0 : s * binade + r = 0
  · exact .inr h0
  left
  by_cases hstart : s = 0 ∨ binade < r
  · -- the step before lies in the same binade
    have hpred : s * binade + r - 1 = s * binade + (r - 1) := by
      unfold binade at *; omega
    rw [hpred, unitsOf_scaled (by omega) (by omega)]
    obtain ⟨r', rfl⟩ : ∃ r', r = r' + 1 := ⟨r - 1, by unfold binade at *; omega⟩
    have : (r' * 2 ^ s + (r' + 1) * 2 ^ s) * den + den * 2 ^ s
        = 2 * (r' + 1) * (den * 2 ^ s) := by ring
    rw [Nat.add_sub_cancel]
    omega
  · -- the place is a power of two, and the quotient is not below it
    have hge : binade * 2 ^ s * den ≤ num := by omega
    have hpred := unitsOf_mono (Nat.sub_le (s * binade + r) 1)
    rw [unitsOf_scaled hs hr] at hpred
    have hrb : r = binade := by omega
    subst hrb
    calc (unitsOf (s * binade + binade - 1) + binade * 2 ^ s) * den
        ≤ (binade * 2 ^ s + binade * 2 ^ s) * den :=
          Nat.mul_le_mul_right _ (Nat.add_le_add_right hpred _)
      _ = 2 * (binade * 2 ^ s * den) := by ring
      _ ≤ 2 * num := Nat.mul_le_mul_left _ hge

/-- The quotient is not above the middle of the step behind its place. -/
theorem nearest_upper (num : Nat) {den : Nat} (hden : 0 < den) :
    2 * num ≤ (unitsOf (nearest num den) + unitsOf (nearest num den + 1)) * den := by
  obtain ⟨s, r, hm, hs, hr, -, hhi, -, hup⟩ := nearest_parts num hden
  rw [hm, unitsOf_scaled hs hr]
  by_cases hend : r < 2 * binade
  · rw [Nat.add_assoc, unitsOf_scaled (by omega) (by omega)]
    have : (r * 2 ^ s + (r + 1) * 2 ^ s) * den = 2 * r * (den * 2 ^ s) + den * 2 ^ s := by ring
    omega
  · have hsucc := unitsOf_mono (Nat.le_succ (s * binade + r))
    rw [unitsOf_scaled hs hr] at hsucc
    have hrb : r = 2 * binade := by omega
    subst hrb
    calc 2 * num ≤ 2 * (2 * binade * 2 ^ s * den) := Nat.mul_le_mul_left _ (Nat.le_of_lt hup)
      _ = (2 * binade * 2 ^ s + 2 * binade * 2 ^ s) * den := by ring
      _ ≤ _ := Nat.mul_le_mul_right _ (Nat.add_le_add_left hsucc _)

/-- A quotient strictly between the middles of the two steps at a place goes to that place. -/
theorem nearest_eq {num den m : Nat} (hden : 0 < den) (hm : 0 < m)
    (hlo : (unitsOf (m - 1) + unitsOf m) * den < 2 * num)
    (hhi : 2 * num < (unitsOf m + unitsOf (m + 1)) * den) : nearest num den = m := by
  -- middles grow with the place, so every other place is on the wrong side of one
  have middle_mono : ∀ {i j : Nat}, i ≤ j →
      (unitsOf i + unitsOf (i + 1)) * den ≤ (unitsOf j + unitsOf (j + 1)) * den := fun h =>
    Nat.mul_le_mul_right _ (Nat.add_le_add (unitsOf_mono h) (unitsOf_mono (by omega)))
  rcases Nat.lt_trichotomy (nearest num den) m with hlt | heq | hgt
  · have h1 := nearest_upper num hden
    have h2 := middle_mono (show nearest num den ≤ m - 1 by omega)
    rw [Nat.sub_add_cancel hm] at h2
    omega
  · exact heq
  · have h1 := nearest_lower num hden
    have h2 := middle_mono (show m ≤ nearest num den - 1 by omega)
    rw [Nat.sub_add_cancel (show 1 ≤ nearest num den by omega)] at h2
    omega

end HttpContract.Binary64
