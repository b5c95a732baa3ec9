import HttpContract.Proofs.Binary64.Order

/-!
# Binary64 — the middle of two doubles

Half of a double is exact unless its last place has no half (`units_half`), and a sum goes to the
nearest double. So the sum of the halves of two doubles lies strictly between them as soon as any
double does (`middle_between`); it may be one of the two if they are neighbours.
-/

namespace HttpContract.Binary64

/-! ## Neighbours of a rounded number -/

theorem rounded_le (num den : Nat) : rounded num den ≤ unitsOf (nearest num den) :=
  unitsOf_mono (Nat.min_le_left ..)

theorem le_rounded {m num den : Nat} (hfinite : m < 2047 * binade) (h : m ≤ nearest num den) :
    unitsOf m ≤ rounded num den :=
  unitsOf_mono (Nat.le_min.mpr ⟨h, Nat.le_sub_one_of_lt hfinite⟩)

theorem lt_nearest {m num den : Nat} (h : unitsOf m < rounded num den) : m < nearest num den := by
  by_contra hle
  have hmono := unitsOf_mono (Nat.not_lt.mp hle)
  have hrounded := rounded_le num den
  omega

theorem nearest_lt {m num den : Nat} (hfinite : m < 2047 * binade)
    (h : rounded num den < unitsOf m) : nearest num den < m := by
  by_contra hle
  have hmono := le_rounded hfinite (Nat.not_lt.mp hle)
  omega

/-- A number that is rounded to less than a double is nearer to the result than to that double. -/
theorem two_mul_le_of_lt {s : Int} {x : Binary64} (h : (ofSignedUnits s 1).units < x.units) :
    2 * s ≤ (ofSignedUnits s 1).units + x.units := by
  have hx := unitsOf_magnitude x
  rw [units_ofSignedUnits] at h ⊢
  by_cases hs : s < 0
  · rw [if_pos hs] at h ⊢
    have hrounded := rounded_le s.natAbs 1
    rcases nearest_lower s.natAbs Nat.one_pos with hlower | hzero
    · by_cases hneg : x.units < 0
      · have hplace : x.magnitude < nearest s.natAbs 1 := lt_nearest (by omega)
        have hmono := unitsOf_mono (Nat.le_sub_one_of_lt hplace)
        omega
      · omega
    · rw [hzero, unitsOf_zero] at hrounded
      omega
  · rw [if_neg hs] at h ⊢
    have hplace : nearest s.natAbs 1 < x.magnitude := nearest_lt x.finite (by omega)
    have hmono := unitsOf_mono (show nearest s.natAbs 1 + 1 ≤ x.magnitude from hplace)
    have hrounded := le_rounded (Nat.lt_trans hplace x.finite) (Nat.le_refl _)
    have hupper := nearest_upper s.natAbs Nat.one_pos
    omega

theorem le_two_mul_of_lt {s : Int} {x : Binary64} (h : x.units < (ofSignedUnits s 1).units) :
    (ofSignedUnits s 1).units + x.units ≤ 2 * s := by
  have hflip := two_mul_le_of_lt (s := -s) (x := x.negate)
  rw [units_ofSignedUnits_neg, units_negate] at hflip
  have := hflip (by omega)
  omega

/-! ## Halves -/

/-- Up to `2 ^ 53` units, every whole number of units is a double. -/
theorem unitsOf_small {m : Nat} (h : m ≤ 2 * binade) : unitsOf m = m := by
  have hscaled := unitsOf_scaled (s := 0) (.inl rfl) h
  rw [Nat.zero_mul, Nat.zero_add, Nat.pow_zero, Nat.mul_one] at hscaled
  exact hscaled

theorem exists_units {k : Int} (hk : k.natAbs ≤ 2 ^ 53) : ∃ x : Binary64, x.units = k := by
  have hk : k.natAbs ≤ 2 * binade := hk
  refine ⟨⟨k < 0, k.natAbs, Nat.lt_of_le_of_lt hk (by decide)⟩, ?_⟩
  unfold units
  simp only [unitsOf_small hk, decide_eq_true_eq]
  split <;> omega

/-- One binade further, doubles are twice as large. -/
theorem unitsOf_double {m : Nat} (h : 2 * binade ≤ m) :
    unitsOf m = unitsOf (m - binade) * 2 := by
  obtain ⟨s, r, rfl, hr, hr'⟩ : ∃ s r, m = (s + 1) * binade + r ∧ binade ≤ r
      ∧ r ≤ 2 * binade := by
    refine ⟨m / binade - 2, binade + m % binade, ?_, ?_, ?_⟩ <;> unfold binade at * <;> omega
  rw [show (s + 1) * binade + r - binade = s * binade + r by rw [Nat.add_mul]; omega,
    unitsOf_scaled (.inr hr) hr', unitsOf_scaled (.inr hr) hr', Nat.pow_succ, Nat.mul_assoc]

theorem nearest_half_large {m : Nat} (h : 2 * binade ≤ m) :
    nearest (unitsOf m) 2 = m - binade := by
  rw [unitsOf_double h, show 2 = 1 * 2 from rfl, nearest_scale _ _ (by decide), nearest_unitsOf]

theorem nearest_half_small {m : Nat} (h : m < 2 * binade) :
    nearest (unitsOf m) 2 = roundHalfEven m 2 := by
  have hlog : (m / 2).log2 - 52 = 0 := by
    by_cases hm : m / 2 = 0
    · rw [hm]
      rfl
    · have := (Nat.log2_lt hm).mpr (show m / 2 < 2 ^ 52 by unfold binade at *; omega)
      omega
  rw [unitsOf_small (Nat.le_of_lt h)]
  simp only [nearest, hlog, Nat.zero_mul, Nat.zero_add, Nat.pow_eq, Nat.pow_zero, Nat.mul_one]

theorem half_eq {x : Binary64} {m : Nat} (h : nearest (unitsOf x.magnitude) 2 = m)
    (hfinite : m < 2047 * binade) : x.half = ⟨x.negative, m, hfinite⟩ := by
  subst h
  rw [half, ofUnits, ofUnits?, dif_pos hfinite, Option.getD_some]

/-- Half of a whole number, rounded to an even one if it is not whole. -/
theorem roundHalfEven_two (m : Nat) :
    (m % 2 = 0 ∧ 2 * roundHalfEven m 2 = m) ∨ (m % 2 = 1 ∧ roundHalfEven m 2 % 2 = 0
      ∧ (2 * roundHalfEven m 2 = m + 1 ∨ 2 * roundHalfEven m 2 + 1 = m)) := by
  simp only [roundHalfEven]
  split
  · omega
  split
  · omega
  split <;> omega

/-- A half is exact, or it is the even number of units that is nearest. -/
theorem units_half (x : Binary64) :
    (x.units % 2 = 0 ∧ 2 * x.half.units = x.units)
      ∨ (x.units % 2 = 1 ∧ x.units.natAbs < 2 ^ 53 ∧ x.half.units % 2 = 0
        ∧ (2 * x.half.units = x.units + 1 ∨ 2 * x.half.units = x.units - 1)) := by
  by_cases h : x.magnitude < 2 * binade
  · have hround := roundHalfEven_two x.magnitude
    have hsmall : roundHalfEven x.magnitude 2 ≤ 2 * binade := by omega
    have hsize : x.magnitude < 2 ^ 53 := h
    rw [half_eq (nearest_half_small h) (Nat.lt_of_le_of_lt hsmall (by decide))]
    unfold units
    simp only [unitsOf_small hsmall, unitsOf_small (Nat.le_of_lt h)]
    cases x.negative
    · rw [if_neg (by decide), if_neg (by decide)]
      omega
    · rw [if_pos rfl, if_pos rfl]
      omega
  · have hdouble := unitsOf_double (Nat.not_lt.mp h)
    have hfinite := x.finite
    rw [half_eq (nearest_half_large (Nat.not_lt.mp h)) (Nat.lt_of_le_of_lt (Nat.sub_le ..) hfinite)]
    left
    unfold units
    simp only [hdouble]
    cases x.negative
    · rw [if_neg (by decide), if_neg (by decide)]
      omega
    · rw [if_pos rfl, if_pos rfl]
      omega

theorem units_half_negate (x : Binary64) : x.negate.half.units = -x.half.units := by
  have hnegate : x.negate.half = x.half.negate := by
    unfold half negate ofUnits ofUnits?
    simp only
    split <;> rfl
  rw [hnegate, units_negate]

/-! ## Middles -/

/-- The middle of two doubles, computed as the sum of their halves. -/
theorem units_middle (x y : Binary64) :
    (x.half.add y.half).units = (ofSignedUnits (x.half.units + y.half.units) 1).units :=
  units_add _ _

/-- If a double lies between two others, the middle of these is not the smaller one. -/
theorem lt_middle {x y z : Binary64} (hxy : x.units < y.units) (hyz : y.units < z.units) :
    x.units < (x.half.add z.half).units := by
  rw [units_middle]
  by_contra hle
  -- every double above the first is too far from the sum to be nearer than the first
  have hfar : ∀ d : Binary64, x.units < d.units →
      2 * (x.half.units + z.half.units) ≤ x.units + d.units := by
    intro d hd
    have hnear := two_mul_le_of_lt (s := x.half.units + z.half.units) (x := d) (by omega)
    omega
  have hunit : ∀ k : Int, k.natAbs ≤ 2 ^ 53 → x.units < k →
      2 * (x.half.units + z.half.units) ≤ x.units + k := by
    intro k hk hlt
    obtain ⟨d, rfl⟩ := exists_units hk
    exact hfar d hlt
  have hy := hfar y hxy
  rcases units_half x with ⟨hx, hx'⟩ | ⟨hx, hsmall, heven, hx'⟩
  · rcases units_half z with ⟨hz, hz'⟩ | ⟨hz, hsmall, heven, hz'⟩
    · omega
    · by_cases hlow : -2 ^ 53 ≤ x.units
      · have hnext := hunit (x.units + 1) (by omega) (by omega)
        omega
      · -- only the last double before `-2 ^ 53` is left, and there the tie goes upwards
        have hedge := hunit (-2 ^ 53) (by omega) (by omega)
        obtain ⟨d, hd⟩ : ∃ d : Binary64, d.units = -2 ^ 53 - 2 :=
          ⟨⟨true, 2 * binade + 1, by decide⟩, by decide +kernel⟩
        have hprevious := hfar d
        have htie : (ofSignedUnits (-2 ^ 53 - 1) 1).units = -2 ^ 53 := by decide +kernel
        have hsum : x.half.units + z.half.units = -2 ^ 53 - 1 := by omega
        rw [hsum, htie] at hle
        omega
  · have hnext := hunit (x.units + 1) (by omega) (by omega)
    clear hunit hfar hsmall
    rcases units_half z with ⟨hz, hz'⟩ | ⟨hz, -, heven', hz'⟩
    · omega
    · omega

theorem middle_lt {x y z : Binary64} (hxy : x.units < y.units) (hyz : y.units < z.units) :
    (x.half.add z.half).units < z.units := by
  have hflip := lt_middle (x := z.negate) (y := y.negate) (z := x.negate)
    (by rw [units_negate, units_negate]; omega) (by rw [units_negate, units_negate]; omega)
  rw [units_middle, units_half_negate, units_half_negate, units_negate,
    show -z.half.units + -x.half.units = -(x.half.units + z.half.units) by omega,
    units_ofSignedUnits_neg, ← units_middle] at hflip
  omega

/-- The middle of two doubles that differ does not lie outside. -/
theorem middle_bounds {x z : Binary64} (h : x.units < z.units) :
    x.units ≤ (x.half.add z.half).units ∧ (x.half.add z.half).units ≤ z.units := by
  rw [units_middle]
  have hsum : 2 * x.units ≤ 2 * (x.half.units + z.half.units)
      ∧ 2 * (x.half.units + z.half.units) ≤ 2 * z.units := by
    rcases units_half x with ⟨hx, hx'⟩ | ⟨hx, -, -, hx'⟩ <;>
      rcases units_half z with ⟨hz, hz'⟩ | ⟨hz, -, -, hz'⟩ <;> omega
  constructor
  · by_contra hlt
    have hnear := two_mul_le_of_lt (s := x.half.units + z.half.units) (x := x) (by omega)
    omega
  · by_contra hlt
    have hnear := le_two_mul_of_lt (s := x.half.units + z.half.units) (x := z) (by omega)
    omega

end HttpContract.Binary64
