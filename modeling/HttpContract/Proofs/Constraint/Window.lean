import HttpContract.Proofs.Constraint.DrawnNumber
import Mathlib.Order.Bounds.Defs

/-!
# Constraint.Number — all whole numbers that may be drawn

Where no bound is greater than `2 ^ 52`, the range is exact: it holds the whole numbers that meet
the bounds as they are written, up to a window of a hundred on a side that is left open, and it is
empty if no whole number meets them (`drawInteger_support`).
-/

namespace HttpContract.Constraint.Bounds

open Binary64 (IsInt one one_pos_int isInt_ofInt isInt_zero isInt_floor isInt_ceil isInt_next
  isInt_previous exists_floor exists_ceil)

/-! ## Bounds as they are written -/

/-- Whether a whole number meets the lower bounds. -/
def MeetsLower (b : Bounds) (n : Int) : Prop :=
  (∀ m ∈ b.above, m.units < n * one) ∧ ∀ m ∈ b.atLeast, m.units ≤ n * one

/-- Whether a whole number meets the upper bounds. -/
def MeetsUpper (b : Bounds) (n : Int) : Prop :=
  (∀ m ∈ b.below, n * one < m.units) ∧ ∀ m ∈ b.atMost, n * one ≤ m.units

/-- Whether a whole number meets all bounds. -/
def Admits (b : Bounds) (n : Int) : Prop := b.MeetsLower n ∧ b.MeetsUpper n

/-- Whether a whole number is offered if a side is left open: the numbers on that side end at zero
if zero is within them, and else a hundred from the first number that meets the bounds. -/
def InWindow (b : Bounds) (n : Int) : Prop :=
  match b.above.isSome || b.atLeast.isSome, b.below.isSome || b.atMost.isSome with
  | true, true => True
  | true, false =>
    ∃ lo, IsLeast {k | b.Admits k} lo ∧ n ≤ if lo < 0 then 0 else lo + 100
  | false, true =>
    ∃ hi, IsGreatest {k | b.Admits k} hi ∧ (if 0 < hi then 0 else hi - 100) ≤ n
  | false, false => 0 ≤ n ∧ n ≤ 100

/-! ## The ends of the range -/

theorem lower_isSome (b : Bounds) : b.lower.isSome = (b.above.isSome || b.atLeast.isSome) := by
  rw [lower, above?, atLeast?]
  cases b.above <;> cases b.atLeast <;> rfl

theorem upper_isSome (b : Bounds) : b.upper.isSome = (b.below.isSome || b.atMost.isSome) := by
  rw [upper, below?, atMost?]
  cases b.below <;> cases b.atMost <;> rfl

theorem units_of_isModerate {m : Json.Number} (h : m.IsModerate) :
    m.toBinary64.units = m.units ∧ m.toBinary64.units.natAbs ≤ 2 ^ 52 * one := by
  have hsize := units_le_of_isModerate h
  have hunits : m.toBinary64.units = m.units := units_toBinary64 (by omega)
  exact ⟨hunits, by rwa [hunits]⟩

theorem isInt_hundred : hundred.IsInt 100 := isInt_ofInt (by decide)

/-- The lower end that is filled in for an upper one. -/
theorem isInt_filledLower {y : Binary64} {k : Int} (hk : y.IsInt k)
    (hsize : k.natAbs ≤ 2 ^ 52 + 1) :
    (fillIn none (some y)).1.IsInt (if 0 < k then 0 else k - 100) := by
  have hless := isInt_zero.less_iff hk
  simp only [fillIn]
  by_cases hpos : 0 < k
  · rw [if_pos hpos, if_pos (hless.mpr hpos)]
    exact isInt_zero
  · rw [if_neg hpos, if_neg (mt hless.mp hpos)]
    exact hk.add isInt_hundred.negate (by omega)

/-- The upper end that is filled in for a lower one. -/
theorem isInt_filledUpper {x : Binary64} {j : Int} (hj : x.IsInt j)
    (hsize : j.natAbs ≤ 2 ^ 52 + 1) :
    (fillIn (some x) none).2.IsInt (if j < 0 then 0 else j + 100) := by
  have hless := hj.less_iff isInt_zero
  simp only [fillIn]
  by_cases hneg : j < 0
  · rw [if_pos hneg, if_pos (hless.mpr hneg)]
    exact isInt_zero
  · rw [if_neg hneg, if_neg (mt hless.mp hneg)]
    exact hj.add isInt_hundred (by omega)

theorem exists_least_iff {s : Set Int} {k : Int} (h : IsLeast s k) {P : Int → Prop} :
    (∃ lo, IsLeast s lo ∧ P lo) ↔ P k :=
  ⟨fun ⟨_, hlo, hP⟩ => hlo.unique h ▸ hP, fun hP => ⟨k, h, hP⟩⟩

theorem exists_greatest_iff {s : Set Int} {k : Int} (h : IsGreatest s k) {P : Int → Prop} :
    (∃ hi, IsGreatest s hi ∧ P hi) ↔ P k :=
  ⟨fun ⟨_, hhi, hP⟩ => hhi.unique h ▸ hP, fun hP => ⟨k, h, hP⟩⟩

/-- The ends of the range are these whole numbers, and between them lie the ones that are offered.
-/
structure Offers (b : Bounds) (j k : Int) : Prop where
  first : b.integerEnds.1.IsInt j
  last : b.integerEnds.2.IsInt k
  first_size : j.natAbs ≤ 2 ^ 53
  last_size : k.natAbs ≤ 2 ^ 53
  some_iff : j ≤ k ↔ ∃ n, b.Admits n
  between_iff : ∀ n, j ≤ n ∧ n ≤ k ↔ b.Admits n ∧ b.InWindow n

section Ends

variable {b : Bounds} (hb : b.IsModerate)

include hb

theorem lower_le_iff_meets {n : Int} :
    (∀ l ∈ b.lower, l.units ≤ n * one) ↔ b.MeetsLower n := by
  rw [lower_le_iff, MeetsLower, above?, atLeast?, Option.forall_mem_map, Option.forall_mem_map]
  refine and_congr (forall₂_congr fun m hm => ?_) (forall₂_congr fun m hm => ?_)
  · obtain ⟨hunits, hsize⟩ := units_of_isModerate (hb.above m hm)
    obtain ⟨k, hk, -, hfirst⟩ := isInt_next hsize
    rw [hk, Int.mul_le_mul_right one_pos_int, ← hfirst, hunits]
  · obtain ⟨hunits, -⟩ := units_of_isModerate (hb.atLeast m hm)
    obtain ⟨k, hk, hfirst⟩ := exists_ceil m.toBinary64
    rw [hk, Int.mul_le_mul_right one_pos_int, ← hfirst, hunits]

theorem le_upper_iff_meets {n : Int} :
    (∀ l ∈ b.upper, n * one ≤ l.units) ↔ b.MeetsUpper n := by
  rw [le_upper_iff, MeetsUpper, below?, atMost?, Option.forall_mem_map, Option.forall_mem_map]
  refine and_congr (forall₂_congr fun m hm => ?_) (forall₂_congr fun m hm => ?_)
  · obtain ⟨hunits, hsize⟩ := units_of_isModerate (hb.below m hm)
    obtain ⟨k, hk, -, hlast⟩ := isInt_previous hsize
    rw [hk, Int.mul_le_mul_right one_pos_int, ← hlast, hunits]
  · obtain ⟨hunits, -⟩ := units_of_isModerate (hb.atMost m hm)
    obtain ⟨k, hk, hlast⟩ := exists_floor m.toBinary64
    rw [hk, Int.mul_le_mul_right one_pos_int, ← hlast, hunits]

/-- The lower end is the first whole number that meets the lower bounds. -/
theorem exists_first :
    ∀ l ∈ b.lower, ∃ k : Int, l.IsInt k ∧ k.natAbs ≤ 2 ^ 52 + 1
      ∧ ∀ n, b.MeetsLower n ↔ k ≤ n := by
  intro l hl
  obtain ⟨k, hk, hsize⟩ : ∃ k : Int, l.IsInt k ∧ k.natAbs ≤ 2 ^ 52 + 1 := by
    refine forall_lower (P := fun l => ∃ k : Int, l.IsInt k ∧ k.natAbs ≤ 2 ^ 52 + 1)
      (Option.forall_mem_map.mpr fun m hm => ?_) (Option.forall_mem_map.mpr fun m hm => ?_) l hl
    · obtain ⟨k, hk, hsize, -⟩ := isInt_next (units_of_isModerate (hb.above m hm)).2
      exact ⟨k, hk, hsize⟩
    · obtain ⟨k, hk, hsize, -⟩ := isInt_ceil (units_of_isModerate (hb.atLeast m hm)).2
      exact ⟨k, hk, by omega⟩
  refine ⟨k, hk, hsize, fun n => ?_⟩
  rw [← lower_le_iff_meets hb, Option.mem_def.mp hl]
  simp only [Option.mem_def, Option.some.injEq, forall_eq']
  rw [hk, Int.mul_le_mul_right one_pos_int]

/-- The upper end is the last whole number that meets the upper bounds. -/
theorem exists_last :
    ∀ l ∈ b.upper, ∃ k : Int, l.IsInt k ∧ k.natAbs ≤ 2 ^ 52 + 1
      ∧ ∀ n, b.MeetsUpper n ↔ n ≤ k := by
  intro l hl
  obtain ⟨k, hk, hsize⟩ : ∃ k : Int, l.IsInt k ∧ k.natAbs ≤ 2 ^ 52 + 1 := by
    refine forall_upper (P := fun l => ∃ k : Int, l.IsInt k ∧ k.natAbs ≤ 2 ^ 52 + 1)
      (Option.forall_mem_map.mpr fun m hm => ?_) (Option.forall_mem_map.mpr fun m hm => ?_) l hl
    · obtain ⟨k, hk, hsize, -⟩ := isInt_previous (units_of_isModerate (hb.below m hm)).2
      exact ⟨k, hk, hsize⟩
    · obtain ⟨k, hk, hsize, -⟩ := isInt_floor (units_of_isModerate (hb.atMost m hm)).2
      exact ⟨k, hk, by omega⟩
  refine ⟨k, hk, hsize, fun n => ?_⟩
  rw [← le_upper_iff_meets hb, Option.mem_def.mp hl]
  simp only [Option.mem_def, Option.some.injEq, forall_eq']
  rw [hk, Int.mul_le_mul_right one_pos_int]

theorem meetsLower_of_open (hlo : b.lower = none) (n : Int) : b.MeetsLower n := by
  rw [← lower_le_iff_meets hb, hlo]
  exact fun l hl => nomatch hl

theorem meetsUpper_of_open (hhi : b.upper = none) (n : Int) : b.MeetsUpper n := by
  rw [← le_upper_iff_meets hb, hhi]
  exact fun l hl => nomatch hl

theorem exists_offers_open (hlo : b.lower = none) (hhi : b.upper = none) :
    ∃ j k, b.Offers j k := by
  have hadmits : ∀ n, b.Admits n := fun n =>
    ⟨meetsLower_of_open hb hlo n, meetsUpper_of_open hb hhi n⟩
  have hends : b.integerEnds = (Binary64.zero, hundred) := by rw [integerEnds_eq, hlo, hhi, fillIn]
  refine ⟨0, 100, ?_, ?_, by decide, by decide, ?_, fun n => ?_⟩
  · simp only [hends]
    exact isInt_zero
  · simp only [hends]
    exact isInt_hundred
  · exact iff_of_true (by decide) ⟨0, hadmits 0⟩
  · rw [InWindow, ← lower_isSome, ← upper_isSome, hlo, hhi]
    exact (and_iff_right (hadmits n)).symm

theorem exists_offers_lower {x : Binary64} (hlo : b.lower = some x) (hhi : b.upper = none) :
    ∃ j k, b.Offers j k := by
  obtain ⟨j, hj, hsize, hfirst⟩ := exists_first hb x hlo
  have hadmits : ∀ n, b.Admits n ↔ j ≤ n := fun n =>
    (and_iff_left (meetsUpper_of_open hb hhi n)).trans (hfirst n)
  have hleast : IsLeast {n | b.Admits n} j :=
    ⟨(hadmits j).mpr (Int.le_refl j), fun n hn => (hadmits n).mp hn⟩
  refine ⟨j, if j < 0 then 0 else j + 100, ?_, ?_, by omega, ?_, ?_, fun n => ?_⟩
  · rwa [integerEnds_of_lower x hlo]
  · rw [integerEnds_eq, hlo, hhi]
    exact isInt_filledUpper hj hsize
  · split <;> omega
  · refine iff_of_true ?_ ⟨j, hleast.1⟩
    split <;> omega
  · rw [InWindow, ← lower_isSome, ← upper_isSome, hlo, hhi, Option.isSome_some, Option.isSome_none]
    simp only
    rw [exists_least_iff hleast, hadmits]

theorem exists_offers_upper {y : Binary64} (hlo : b.lower = none) (hhi : b.upper = some y) :
    ∃ j k, b.Offers j k := by
  obtain ⟨k, hk, hsize, hlast⟩ := exists_last hb y hhi
  have hadmits : ∀ n, b.Admits n ↔ n ≤ k := fun n =>
    (and_iff_right (meetsLower_of_open hb hlo n)).trans (hlast n)
  have hgreatest : IsGreatest {n | b.Admits n} k :=
    ⟨(hadmits k).mpr (Int.le_refl k), fun n hn => (hadmits n).mp hn⟩
  refine ⟨if 0 < k then 0 else k - 100, k, ?_, ?_, ?_, by omega, ?_, fun n => ?_⟩
  · rw [integerEnds_eq, hlo, hhi]
    exact isInt_filledLower hk hsize
  · rwa [integerEnds_of_upper y hhi]
  · split <;> omega
  · refine iff_of_true ?_ ⟨k, hgreatest.1⟩
    split <;> omega
  · rw [InWindow, ← lower_isSome, ← upper_isSome, hlo, hhi, Option.isSome_some, Option.isSome_none]
    simp only
    rw [exists_greatest_iff hgreatest, hadmits, and_comm]

theorem exists_offers_both {x y : Binary64} (hlo : b.lower = some x) (hhi : b.upper = some y) :
    ∃ j k, b.Offers j k := by
  obtain ⟨j, hj, hsize, hfirst⟩ := exists_first hb x hlo
  obtain ⟨k, hk, hsize', hlast⟩ := exists_last hb y hhi
  have hadmits : ∀ n, b.Admits n ↔ j ≤ n ∧ n ≤ k := fun n => and_congr (hfirst n) (hlast n)
  refine ⟨j, k, ?_, ?_, by omega, by omega, ?_, fun n => ?_⟩
  · rwa [integerEnds_of_lower x hlo]
  · rwa [integerEnds_of_upper y hhi]
  · simp only [hadmits]
    exact ⟨fun h => ⟨j, Int.le_refl j, h⟩, fun ⟨n, hn⟩ => Int.le_trans hn.1 hn.2⟩
  · rw [InWindow, ← lower_isSome, ← upper_isSome, hlo, hhi, Option.isSome_some, Option.isSome_some]
    exact (hadmits n).symm.trans (and_iff_left trivial).symm

theorem exists_offers : ∃ j k, b.Offers j k := by
  cases hlo : b.lower with
  | none =>
    cases hhi : b.upper with
    | none => exact exists_offers_open hb hlo hhi
    | some y => exact exists_offers_upper hb hlo hhi
  | some x =>
    cases hhi : b.upper with
    | none => exact exists_offers_lower hb hlo hhi
    | some y => exact exists_offers_both hb hlo hhi

/-- The range is empty if no whole number meets the bounds. Otherwise it holds the numbers that are
offered. -/
theorem exists_integerRange :
    (∃ e, b.integerRange = .error e ∧ e.kind = .unsatisfiable ∧ ∀ n, ¬ b.Admits n)
      ∨ ∃ j k, b.integerRange = .ok (j, k) ∧ (∃ n, b.Admits n)
        ∧ ∀ n, j ≤ n ∧ n ≤ k ↔ b.Admits n ∧ b.InWindow n := by
  obtain ⟨j, k, h⟩ := exists_offers hb
  have hsize := h.first_size
  have hsize' := h.last_size
  rw [integerRange_eq, h.first, h.last, h.first.toWord hsize, h.last.toWord hsize']
  simp only [Int.mul_lt_mul_right one_pos_int]
  by_cases hle : j ≤ k
  · right
    refine ⟨j, k, if_neg ?_, h.some_iff.mp hle, h.between_iff⟩
    omega
  · left
    refine ⟨_, if_pos (.inl (Int.not_le.mp hle)), rfl, ?_⟩
    exact not_exists.mp (mt h.some_iff.mpr hle)

end Ends

/-! ## Drawing -/

/-- Where no bound is greater than `2 ^ 52`, drawing a whole number fails for the reason that the
bounds cannot be met if and only if no whole number meets them. It never fails otherwise, and what
it may give are the whole numbers that meet the bounds and lie in the window of the open sides, all
of them and nothing else. -/
theorem drawInteger_support {b : Bounds} (hb : b.IsModerate) :
    (∀ draws, (∃ e, (b.drawInteger.run draws).1 = .error (.reason e) ∧ e.kind = .unsatisfiable)
        ↔ ¬ ∃ n, b.Admits n)
      ∧ (∀ draws, (∃ v, (b.drawInteger.run draws).1 = .ok v) ↔ ∃ n, b.Admits n)
      ∧ ∀ v, (∃ draws, (b.drawInteger.run draws).1 = .ok v)
        ↔ ∃ n : Json.WordInt, v = .number (.integer n) ∧ b.Admits n.val ∧ b.InWindow n.val := by
  rcases exists_integerRange hb with ⟨e, hrange, hkind, hnone⟩ | ⟨j, k, hrange, hsome, hoffered⟩
  · have hrun : ∀ draws, (b.drawInteger.run draws).1 = .error (.reason e) := fun draws => by
      rw [run_drawInteger, hrange]
      rfl
    refine ⟨fun draws => ?_, fun draws => ?_, fun v => ?_⟩
    · exact iff_of_true ⟨e, hrun draws, hkind⟩ (not_exists.mpr hnone)
    · refine iff_of_false ?_ (not_exists.mpr hnone)
      rintro ⟨v, hv⟩
      cases (hrun draws).symm.trans hv
    · refine iff_of_false ?_ ?_
      · rintro ⟨draws, hv⟩
        cases (hrun draws).symm.trans hv
      · rintro ⟨n, -, hn, -⟩
        exact hnone n.val hn
  · have hrun : ∀ draws, ∃ v, (b.drawInteger.run draws).1 = .ok v := fun draws => by
      rw [run_drawInteger, hrange]
      exact ⟨_, rfl⟩
    refine ⟨fun draws => ?_, fun draws => ?_, fun v => ?_⟩
    · refine iff_of_false ?_ (not_not.mpr hsome)
      rintro ⟨e, he, -⟩
      obtain ⟨v, hv⟩ := hrun draws
      cases he.symm.trans hv
    · exact iff_of_true (hrun draws) hsome
    · rw [drawInteger_ok_iff]
      constructor
      · rintro ⟨lo, hi, n, hok, hlo, hhi, rfl⟩
        obtain ⟨-, hword, hword', -⟩ := integerRange_ok hok
        cases hrange.symm.trans hok
        have hn := (hoffered n).mp ⟨hlo, hhi⟩
        refine ⟨Json.WordInt.ofInt n, rfl, ?_⟩
        rwa [Json.WordInt.val_ofInt (by omega) (by omega)]
      · rintro ⟨n, rfl, hn⟩
        obtain ⟨hlo, hhi⟩ := (hoffered n.val).mpr hn
        exact ⟨j, k, n.val, hrange, hlo, hhi, by rw [Json.ofInt, Json.WordInt.ofInt_val rfl]⟩

/-- Whole numbers above one half and up to two. -/
def aboveHalf : Bounds where
  above := some (.float (Binary64.ofInt 1).half)
  atMost := some (.integer (Json.WordInt.ofInt 2))

theorem admits_aboveHalf {n : Int} : aboveHalf.Admits n ↔ 1 ≤ n ∧ n ≤ 2 := by
  have hhalf : 2 * (Binary64.ofInt 1).half.units = one := by decide +kernel
  have hone := one_pos_int
  have hlower : (Binary64.ofInt 1).half.units < n * one ↔ 1 ≤ n := by
    constructor
    · intro h
      by_contra hn
      have hle := Int.mul_le_mul_of_nonneg_right (show n ≤ 0 by omega) hone.le
      omega
    · intro h
      have hle := Int.mul_le_mul_of_nonneg_right h hone.le
      omega
  have hupper : n * one ≤ (2 : Int) * one ↔ n ≤ 2 := Int.mul_le_mul_right hone
  simp only [Admits, MeetsLower, MeetsUpper, aboveHalf, Option.mem_some_iff, forall_eq',
    Option.not_mem_none, IsEmpty.forall_iff, implies_true, and_true, true_and]
  exact and_congr hlower hupper

/-- One and two may be drawn, and nothing else. -/
theorem drawInteger_support_aboveHalf :
    aboveHalf.IsModerate ∧ ∀ v, (∃ draws, (aboveHalf.drawInteger.run draws).1 = .ok v)
      ↔ v = Json.ofInt 1 ∨ v = Json.ofInt 2 := by
  have hb : aboveHalf.IsModerate := by decide +kernel
  refine ⟨hb, fun v => ?_⟩
  rw [(drawInteger_support hb).2.2]
  constructor
  · rintro ⟨n, rfl, hn, -⟩
    have hn := admits_aboveHalf.mp hn
    rcases show n.val = 1 ∨ n.val = 2 by omega with h | h
    · exact .inl (congrArg (fun n => Json.number (.integer n)) (Json.WordInt.ofInt_val h).symm)
    · exact .inr (congrArg (fun n => Json.number (.integer n)) (Json.WordInt.ofInt_val h).symm)
  · rintro (rfl | rfl)
    · exact ⟨Json.WordInt.ofInt 1, rfl, admits_aboveHalf.mpr (by decide), trivial⟩
    · exact ⟨Json.WordInt.ofInt 2, rfl, admits_aboveHalf.mpr (by decide), trivial⟩

end HttpContract.Constraint.Bounds
