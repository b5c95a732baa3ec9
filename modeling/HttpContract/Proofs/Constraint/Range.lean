import HttpContract.Constraint.Number
import HttpContract.Proofs.Basic
import HttpContract.Proofs.Json.Number
import HttpContract.Proofs.Random
import Mathlib.Data.Option.Basic

/-!
# Constraint.Number — the range that whole numbers are drawn from

The ends of the range are whole doubles made from the bounds, and a word that is drawn is compared
with the bounds as a double again. As rounding keeps the order, that double lies between the ends
(`contains_between`), so a bound that may be reached is always met. A bound that must not be reached
is an end of the range if the next whole number is rounded back to it; then the bound is drawn and
refused (`keepsAbove_iff`, `drawInteger_accepted_iff`).
-/

namespace HttpContract

/-- Every word between two others is drawn from some source. -/
theorem Sampler.exists_between {lo hi n : Int} (hlo : lo ≤ n) (hhi : n ≤ hi) :
    ∃ draws, (Sampler.between lo hi draws).1 = n := by
  refine ⟨⟨fun _ => (n - lo).toNat, 0⟩, ?_⟩
  show lo + ((n - lo).toNat % ((hi - lo).toNat + 1) : Nat) = n
  rw [Nat.mod_eq_of_lt (by omega)]
  omega

namespace Constraint.Bounds

open Binary64 (IsInt one isInt_ofInt exists_floor exists_ceil exists_next exists_previous floor_le
  le_ceil isWhole_ofInt isWhole_add isWhole_floor isWhole_ceil ofInt_mono ofInt_toWord toWord_mono
  lt_ofInt ofInt_lt)

/-! ## Ends -/

/-- The least whole number that the lower bounds leave, as computed with doubles. -/
def lower (b : Bounds) : Option Binary64 :=
  tightest Binary64.larger (b.above?.map fun x => x.floor.addInt 1) (b.atLeast?.map Binary64.ceil)

/-- The greatest whole number that the upper bounds leave, as computed with doubles. -/
def upper (b : Bounds) : Option Binary64 :=
  tightest Binary64.smaller (b.below?.map fun x => x.ceil.addInt (-1))
    (b.atMost?.map Binary64.floor)

/-- A number is not below the tighter of two lower limits if it is below neither of them. -/
theorem tightest_larger_le {x y : Option Binary64} {u : Int} :
    (∀ l ∈ tightest Binary64.larger x y, l.units ≤ u)
      ↔ (∀ l ∈ x, l.units ≤ u) ∧ ∀ l ∈ y, l.units ≤ u := by
  cases x with
  | none => cases y <;> simp [tightest]
  | some x => cases y <;> simp [tightest]

theorem le_tightest_smaller {x y : Option Binary64} {u : Int} :
    (∀ l ∈ tightest Binary64.smaller x y, u ≤ l.units)
      ↔ (∀ l ∈ x, u ≤ l.units) ∧ ∀ l ∈ y, u ≤ l.units := by
  cases x with
  | none => cases y <;> simp [tightest]
  | some x => cases y <;> simp [tightest]

theorem lower_le_iff {b : Bounds} {u : Int} :
    (∀ l ∈ b.lower, l.units ≤ u)
      ↔ (∀ l ∈ b.above?, (l.floor.addInt 1).units ≤ u) ∧ ∀ l ∈ b.atLeast?, l.ceil.units ≤ u := by
  rw [lower, tightest_larger_le, Option.forall_mem_map, Option.forall_mem_map]

theorem le_upper_iff {b : Bounds} {u : Int} :
    (∀ l ∈ b.upper, u ≤ l.units)
      ↔ (∀ l ∈ b.below?, u ≤ (l.ceil.addInt (-1)).units)
        ∧ ∀ l ∈ b.atMost?, u ≤ l.floor.units := by
  rw [upper, le_tightest_smaller, Option.forall_mem_map, Option.forall_mem_map]

/-- A property of both limits is one of the tighter of them. -/
theorem forall_tightest {pick : Binary64 → Binary64 → Binary64} {x y : Option Binary64}
    {P : Binary64 → Prop} (hpick : ∀ x y, pick x y = x ∨ pick x y = y) (hx : ∀ l ∈ x, P l)
    (hy : ∀ l ∈ y, P l) : ∀ l ∈ tightest pick x y, P l := by
  cases x with
  | none => simpa only [tightest] using hy
  | some x =>
    cases y with
    | none => simpa only [tightest] using hx
    | some y =>
      rintro _ ⟨⟩
      rcases hpick x y with h | h <;> rw [h]
      · exact hx x rfl
      · exact hy y rfl

theorem forall_lower {b : Bounds} {P : Binary64 → Prop}
    (habove : ∀ x ∈ b.above?, P (x.floor.addInt 1)) (hatLeast : ∀ y ∈ b.atLeast?, P y.ceil) :
    ∀ l ∈ b.lower, P l := by
  refine forall_tightest (fun x y => ?_) (Option.forall_mem_map.mpr habove)
    (Option.forall_mem_map.mpr hatLeast)
  unfold Binary64.larger
  split <;> simp

theorem forall_upper {b : Bounds} {P : Binary64 → Prop}
    (hbelow : ∀ x ∈ b.below?, P (x.ceil.addInt (-1))) (hatMost : ∀ y ∈ b.atMost?, P y.floor) :
    ∀ l ∈ b.upper, P l := by
  refine forall_tightest (fun x y => ?_) (Option.forall_mem_map.mpr hbelow)
    (Option.forall_mem_map.mpr hatMost)
  unfold Binary64.smaller
  split <;> simp

theorem isWhole_lower (b : Bounds) : ∀ l ∈ b.lower, l.isWhole = true :=
  forall_lower (fun x _ => isWhole_add (isWhole_floor x) (isWhole_ofInt 1))
    fun y _ => isWhole_ceil y

theorem isWhole_upper (b : Bounds) : ∀ l ∈ b.upper, l.isWhole = true :=
  forall_upper (fun x _ => isWhole_add (isWhole_ceil x) (isWhole_ofInt (-1)))
    fun y _ => isWhole_floor y

theorem isWhole_fillIn {lo hi : Option Binary64} (hlo : ∀ l ∈ lo, l.isWhole = true)
    (hhi : ∀ l ∈ hi, l.isWhole = true) :
    (fillIn lo hi).1.isWhole = true ∧ (fillIn lo hi).2.isWhole = true := by
  have hzero : Binary64.zero.isWhole = true := Binary64.isInt_zero.isWhole
  have hhundred : hundred.isWhole = true := isWhole_ofInt 100
  have hnegate : hundred.negate.isWhole = true := by
    rw [← hhundred, Binary64.negate, Binary64.isWhole_signed]
  cases lo with
  | none =>
    cases hi with
    | none =>
      simp only [fillIn]
      exact ⟨hzero, hhundred⟩
    | some y =>
      have hy := hhi y rfl
      simp only [fillIn]
      split
      · exact ⟨hzero, hy⟩
      · exact ⟨isWhole_add hy hnegate, hy⟩
  | some x =>
    have hx := hlo x rfl
    cases hi with
    | some y =>
      simp only [fillIn]
      exact ⟨hx, hhi y rfl⟩
    | none =>
      simp only [fillIn]
      split
      · exact ⟨hx, hzero⟩
      · exact ⟨hx, isWhole_add hx hhundred⟩

/-- All ends are whole before they are rounded to whole numbers. -/
theorem integerEnds_eq (b : Bounds) : b.integerEnds = fillIn b.lower b.upper := by
  obtain ⟨hlo, hhi⟩ := isWhole_fillIn b.isWhole_lower b.isWhole_upper
  show ((fillIn b.lower b.upper).1.ceil, (fillIn b.lower b.upper).2.floor) = _
  rw [Binary64.ceil, if_pos hlo, Binary64.floor, if_pos hhi]

theorem integerEnds_isWhole (b : Bounds) :
    b.integerEnds.1.isWhole = true ∧ b.integerEnds.2.isWhole = true :=
  integerEnds_eq b ▸ isWhole_fillIn b.isWhole_lower b.isWhole_upper

theorem integerEnds_of_lower {b : Bounds} : ∀ l ∈ b.lower, b.integerEnds.1 = l := by
  intro l hl
  rw [integerEnds_eq, Option.mem_def.mp hl]
  cases b.upper <;> rfl

theorem exists_lower {b : Bounds} {x : Binary64} (hx : x ∈ b.above?) : ∃ l, l ∈ b.lower := by
  rw [lower, Option.mem_def.mp hx]
  cases b.atLeast? <;> exact ⟨_, rfl⟩

theorem exists_upper {b : Bounds} {x : Binary64} (hx : x ∈ b.below?) : ∃ l, l ∈ b.upper := by
  rw [upper, Option.mem_def.mp hx]
  cases b.atMost? <;> exact ⟨_, rfl⟩

theorem integerEnds_of_upper {b : Bounds} : ∀ l ∈ b.upper, b.integerEnds.2 = l := by
  intro l hl
  rw [integerEnds_eq, Option.mem_def.mp hl]
  cases b.lower <;> rfl

/-! ## Words -/

theorem integerRange_eq (b : Bounds) :
    b.integerRange =
      if b.integerEnds.2.units < b.integerEnds.1.units ∨ b.integerEnds.1.units < -2 ^ 63 * one
          ∨ 2 ^ 63 * one < b.integerEnds.2.units
      then .error (.emptyRange .integer b.integerEnds.1 b.integerEnds.2 b)
      else .ok (b.integerEnds.1.toWord, b.integerEnds.2.toWord) := by
  have hfirst : (Binary64.ofInt (-9223372036854775808)).units = -2 ^ 63 * one := by
    decide +kernel
  have hlast : (Binary64.ofInt 9223372036854775808).units = 2 ^ 63 * one := by decide +kernel
  rw [integerRange]
  simp only [Binary64.less, hfirst, hlast, Bool.or_eq_true, decide_eq_true_eq, or_assoc]

/-- The words that are drawn from lie between the doubles that were computed. -/
theorem integerRange_ok {b : Bounds} {lo hi : Int} (h : b.integerRange = .ok (lo, hi)) :
    lo ≤ hi ∧ -2 ^ 63 ≤ lo ∧ hi < 2 ^ 63
      ∧ (Binary64.ofInt lo).units = b.integerEnds.1.units
      ∧ (Binary64.ofInt hi).units = b.integerEnds.2.units := by
  obtain ⟨hlo, hhi⟩ := b.integerEnds_isWhole
  rw [integerRange_eq] at h
  split at h
  case isTrue => cases h
  case isFalse hrange =>
    cases h
    refine ⟨toWord_mono (by omega), ?_, ?_, ofInt_toWord hlo (by omega) (by omega),
      ofInt_toWord hhi (by omega) (by omega)⟩
    · unfold Binary64.toWord
      omega
    · unfold Binary64.toWord
      omega

theorem run_drawInteger (b : Bounds) (draws : Draws) :
    (b.drawInteger.run draws).1
      = (b.integerRange.map fun ends => Json.ofInt (Sampler.between ends.1 ends.2 draws).1).mapError
        Failure.reason := by
  unfold drawInteger
  cases hrange : b.integerRange with
  | error e => rfl
  | ok ends =>
    simp only [Attempt.run_between_bind (integerRange_ok hrange).1]
    rfl

/-- What is drawn from a range are its whole numbers, all of them. -/
theorem drawInteger_ok_iff {b : Bounds} {v : Json} :
    (∃ draws, (b.drawInteger.run draws).1 = .ok v)
      ↔ ∃ lo hi n, b.integerRange = .ok (lo, hi) ∧ lo ≤ n ∧ n ≤ hi ∧ v = Json.ofInt n := by
  constructor
  · rintro ⟨draws, hdraws⟩
    rw [run_drawInteger, mapError_ok, map_ok] at hdraws
    obtain ⟨⟨lo, hi⟩, hrange, rfl⟩ := hdraws
    obtain ⟨hlo, hhi⟩ := Sampler.yields_between (integerRange_ok hrange).1 draws
    exact ⟨lo, hi, _, hrange, hlo, hhi, rfl⟩
  · rintro ⟨lo, hi, n, hrange, hlo, hhi, rfl⟩
    obtain ⟨draws, hdraws⟩ := Sampler.exists_between hlo hhi
    refine ⟨draws, ?_⟩
    rw [run_drawInteger, hrange, ← hdraws]
    rfl

/-- A word is compared with the bounds as a double. -/
theorem accepts_ofInt {b : Bounds} {n : Int} (hlo : -2 ^ 63 ≤ n) (hhi : n < 2 ^ 63) :
    b.accepts .integer (Json.ofInt n) = b.contains (Binary64.ofInt n) := by
  have hnumber : numberOf? (Json.ofInt n) = some (Binary64.ofInt n) := by
    rw [Json.ofInt, numberOf?, Json.Number.toBinary64,
      Json.WordInt.val_ofInt hlo (by omega)]
  rw [accepts, hnumber]
  simp only [isWhole_ofInt, Bool.or_true, Bool.true_and]

/-! ## Accepted numbers -/

theorem meets_iff {limit : Option Binary64} {holds : Binary64 → Bool} :
    meets limit holds = true ↔ ∀ l ∈ limit, holds l = true := by
  cases limit <;> simp [meets]

theorem contains_iff {b : Bounds} {x : Binary64} :
    b.contains x = true
      ↔ ((∀ l ∈ b.above?, l.units < x.units) ∧ ∀ l ∈ b.atLeast?, l.units ≤ x.units)
        ∧ (∀ l ∈ b.below?, x.units < l.units) ∧ ∀ l ∈ b.atMost?, x.units ≤ l.units := by
  simp only [contains, Bool.and_eq_true, meets_iff, Binary64.less, Binary64.atMost,
    decide_eq_true_eq, and_assoc]

/-- No whole number within the lower bounds is rounded to the bound that it must not reach. -/
def KeepsAbove (b : Bounds) : Prop :=
  ∀ n : Int, (∀ x ∈ b.above?, x.units < n * one) → (∀ y ∈ b.atLeast?, y.units ≤ n * one) →
    ∀ x ∈ b.above?, x.units < (Binary64.ofInt n).units

@[inherit_doc KeepsAbove]
def KeepsBelow (b : Bounds) : Prop :=
  ∀ n : Int, (∀ x ∈ b.below?, n * one < x.units) → (∀ y ∈ b.atMost?, n * one ≤ y.units) →
    ∀ x ∈ b.below?, (Binary64.ofInt n).units < x.units

/-- The lower end of the range is not above the whole numbers within the lower bounds, once these
are rounded. -/
theorem lower_le_ofInt {b : Bounds} {n : Int} (habove : ∀ x ∈ b.above?, x.units < n * one)
    (hatLeast : ∀ y ∈ b.atLeast?, y.units ≤ n * one) :
    ∀ l ∈ b.lower, l.units ≤ (Binary64.ofInt n).units := by
  refine lower_le_iff.mpr ⟨fun x hx => ?_, fun y hy => ?_⟩
  · obtain ⟨k, hk, hfirst⟩ := exists_next x
    rw [hk]
    exact ofInt_mono ((hfirst n).mp (habove x hx))
  · obtain ⟨k, hk, hfirst⟩ := exists_ceil y
    rw [← hk.ofInt]
    exact ofInt_mono ((hfirst n).mp (hatLeast y hy))

theorem ofInt_le_upper {b : Bounds} {n : Int} (hbelow : ∀ x ∈ b.below?, n * one < x.units)
    (hatMost : ∀ y ∈ b.atMost?, n * one ≤ y.units) :
    ∀ l ∈ b.upper, (Binary64.ofInt n).units ≤ l.units := by
  refine le_upper_iff.mpr ⟨fun x hx => ?_, fun y hy => ?_⟩
  · obtain ⟨k, hk, hlast⟩ := exists_previous x
    rw [hk]
    exact ofInt_mono ((hlast n).mp (hbelow x hx))
  · obtain ⟨k, hk, hlast⟩ := exists_floor y
    rw [← hk.ofInt]
    exact ofInt_mono ((hlast n).mp (hatMost y hy))

/-- Whether the lower end of the range is above the bound that it must not reach. -/
theorem keepsAbove_iff {b : Bounds} :
    b.KeepsAbove ↔ ∀ x ∈ b.above?, x.units < b.integerEnds.1.units := by
  constructor
  · intro h x hx
    by_contra hle
    -- the end is no more than the bound, so the next whole number is rounded back to the bound
    have hends : ∀ l ∈ b.lower, l.units ≤ x.units := by
      intro l hl
      rw [← integerEnds_of_lower l hl]
      exact Int.not_lt.mp hle
    rw [lower_le_iff] at hends
    obtain ⟨k, hk, hfirst⟩ := exists_next x
    have hlt := (hfirst k).mpr (Int.le_refl k)
    have hnext : x.units < (Binary64.ofInt k).units := by
      refine h k (fun x' hx' => ?_) (fun y hy => ?_) x hx
      · rw [← Option.mem_unique hx hx']
        exact hlt
      · have hceil := hends.2 y hy
        have hle := le_ceil y
        omega
    have hback := hends.1 x hx
    rw [hk] at hback
    omega
  · intro h n habove hatLeast x hx
    obtain ⟨l, hl⟩ := exists_lower hx
    have hlt := h x hx
    rw [integerEnds_of_lower l hl] at hlt
    exact Int.lt_of_lt_of_le hlt (lower_le_ofInt habove hatLeast l hl)

theorem keepsBelow_iff {b : Bounds} :
    b.KeepsBelow ↔ ∀ x ∈ b.below?, b.integerEnds.2.units < x.units := by
  constructor
  · intro h x hx
    by_contra hle
    have hends : ∀ l ∈ b.upper, x.units ≤ l.units := by
      intro l hl
      rw [← integerEnds_of_upper l hl]
      exact Int.not_lt.mp hle
    rw [le_upper_iff] at hends
    obtain ⟨k, hk, hlast⟩ := exists_previous x
    have hlt := (hlast k).mpr (Int.le_refl k)
    have hnext : (Binary64.ofInt k).units < x.units := by
      refine h k (fun x' hx' => ?_) (fun y hy => ?_) x hx
      · rw [← Option.mem_unique hx hx']
        exact hlt
      · have hfloor := hends.2 y hy
        have hle := floor_le y
        omega
    have hback := hends.1 x hx
    rw [hk] at hback
    omega
  · intro h n hbelow hatMost x hx
    obtain ⟨l, hl⟩ := exists_upper hx
    have hlt := h x hx
    rw [integerEnds_of_upper l hl] at hlt
    exact Int.lt_of_le_of_lt (ofInt_le_upper hbelow hatMost l hl) hlt

/-- The bounds that belong to the range are met by every double between its ends. -/
theorem contains_between {b : Bounds} {x : Binary64} (hlo : b.integerEnds.1.units ≤ x.units)
    (hhi : x.units ≤ b.integerEnds.2.units) :
    b.contains x = true
      ↔ (∀ l ∈ b.above?, l.units < x.units) ∧ ∀ l ∈ b.below?, x.units < l.units := by
  have hatLeast : ∀ l ∈ b.atLeast?, l.units ≤ x.units := by
    have hlower : ∀ l ∈ b.lower, l.units ≤ x.units := fun l hl =>
      integerEnds_of_lower l hl ▸ hlo
    intro l hl
    exact Int.le_trans (le_ceil l) ((lower_le_iff.mp hlower).2 l hl)
  have hatMost : ∀ l ∈ b.atMost?, x.units ≤ l.units := by
    have hupper : ∀ l ∈ b.upper, x.units ≤ l.units := fun l hl =>
      integerEnds_of_upper l hl ▸ hhi
    intro l hl
    exact Int.le_trans ((le_upper_iff.mp hupper).2 l hl) (floor_le l)
  rw [contains_iff]
  exact ⟨fun h => ⟨h.1.1, h.2.1⟩, fun h => ⟨⟨h.1, hatLeast⟩, h.2, hatMost⟩⟩

/-- All whole numbers of a range are accepted if rounding keeps away from the bounds that it must
not reach, and in no other case. -/
theorem accepts_range_iff {b : Bounds} {lo hi : Int} (h : b.integerRange = .ok (lo, hi)) :
    (∀ n, lo ≤ n → n ≤ hi → b.accepts .integer (Json.ofInt n) = true)
      ↔ b.KeepsAbove ∧ b.KeepsBelow := by
  obtain ⟨hle, hword, hword', hlo, hhi⟩ := integerRange_ok h
  have hbetween : ∀ n, lo ≤ n → n ≤ hi → b.integerEnds.1.units ≤ (Binary64.ofInt n).units
      ∧ (Binary64.ofInt n).units ≤ b.integerEnds.2.units := by
    intro n hn hn'
    rw [← hlo, ← hhi]
    exact ⟨ofInt_mono hn, ofInt_mono hn'⟩
  have haccepts : ∀ n, lo ≤ n → n ≤ hi → (b.accepts .integer (Json.ofInt n) = true
      ↔ (∀ x ∈ b.above?, x.units < (Binary64.ofInt n).units)
        ∧ ∀ x ∈ b.below?, (Binary64.ofInt n).units < x.units) := by
    intro n hn hn'
    rw [accepts_ofInt (by omega) (by omega)]
    exact contains_between (hbetween n hn hn').1 (hbetween n hn hn').2
  rw [keepsAbove_iff, keepsBelow_iff]
  constructor
  · intro hall
    have hfirst := (haccepts lo (Int.le_refl _) hle).mp (hall lo (Int.le_refl _) hle)
    have hlast := (haccepts hi hle (Int.le_refl _)).mp (hall hi hle (Int.le_refl _))
    rw [hlo] at hfirst
    rw [hhi] at hlast
    exact ⟨hfirst.1, hlast.2⟩
  · rintro ⟨habove, hbelow⟩ n hn hn'
    obtain ⟨hstart, hend⟩ := hbetween n hn hn'
    exact (haccepts n hn hn').mpr ⟨fun x hx => Int.lt_of_lt_of_le (habove x hx) hstart,
      fun x hx => Int.lt_of_le_of_lt hend (hbelow x hx)⟩

/-! ## Drawing -/

/-- Numbers up to `2 ^ 53` are the doubles that they are brought to. -/
theorem units_toBinary64 {n : Json.Number} (h : n.units.natAbs ≤ 2 ^ 53 * one) :
    n.toBinary64.units = n.units := by
  cases n with
  | float x => rfl
  | integer n =>
    rw [Json.Number.units, Int.natAbs_mul, Int.natAbs_natCast] at h
    exact isInt_ofInt (Nat.le_of_mul_le_mul_right h Binary64.one_pos)

/-- A bound of less than `2 ^ 53` is not reached by rounding. -/
theorem keepsAbove_of_lt {b : Bounds} (h : ∀ m ∈ b.above, m.units.natAbs < 2 ^ 53 * one) :
    b.KeepsAbove := by
  intro n habove _ x hx
  obtain ⟨m, hm, rfl⟩ := Option.map_eq_some_iff.mp hx
  have hsmall := h m hm
  rw [← units_toBinary64 (Nat.le_of_lt hsmall)] at hsmall
  exact lt_ofInt hsmall (habove _ hx)

theorem keepsBelow_of_lt {b : Bounds} (h : ∀ m ∈ b.below, m.units.natAbs < 2 ^ 53 * one) :
    b.KeepsBelow := by
  intro n hbelow _ x hx
  obtain ⟨m, hm, rfl⟩ := Option.map_eq_some_iff.mp hx
  have hsmall := h m hm
  rw [← units_toBinary64 (Nat.le_of_lt hsmall)] at hsmall
  exact ofInt_lt hsmall (hbelow _ hx)

theorem yields_drawInteger_of_keeps {b : Bounds} (habove : b.KeepsAbove)
    (hbelow : b.KeepsBelow) : b.drawInteger.Yields fun v => b.accepts .integer v = true := by
  intro draws v hv
  obtain ⟨lo, hi, n, hrange, hlo, hhi, rfl⟩ := drawInteger_ok_iff.mp ⟨draws, hv⟩
  exact (accepts_range_iff hrange).mpr ⟨habove, hbelow⟩ n hlo hhi

/-- For any bounds, all whole numbers that are drawn are accepted if none is drawn at all or if no
whole number within the bounds of a side is rounded to the bound that it must not reach, and in no
other case. Bounds of less than `2 ^ 53` are never reached, and bounds that may be reached do no
harm. -/
theorem drawInteger_accepted_iff (b : Bounds) :
    (b.drawInteger.Yields (fun v => b.accepts .integer v = true)
        ↔ (∀ draws v, (b.drawInteger.run draws).1 ≠ .ok v) ∨ b.KeepsAbove ∧ b.KeepsBelow)
      ∧ ((∀ n ∈ b.above, n.units.natAbs < 2 ^ 53 * one)
        → (∀ n ∈ b.below, n.units.natAbs < 2 ^ 53 * one)
        → b.drawInteger.Yields fun v => b.accepts .integer v = true) := by
  refine ⟨⟨fun h => ?_, fun h => ?_⟩, fun habove hbelow => ?_⟩
  · by_cases hdrawn : ∃ draws v, (b.drawInteger.run draws).1 = .ok v
    · right
      obtain ⟨draws, v, hv⟩ := hdrawn
      obtain ⟨lo, hi, -, hrange, -⟩ := drawInteger_ok_iff.mp ⟨draws, hv⟩
      refine (accepts_range_iff hrange).mp fun n hlo hhi => ?_
      obtain ⟨draws, hn⟩ := drawInteger_ok_iff.mpr ⟨lo, hi, n, hrange, hlo, hhi, rfl⟩
      exact h draws _ hn
    · left
      intro draws v hv
      exact hdrawn ⟨draws, v, hv⟩
  · rcases h with hnone | ⟨habove, hbelow⟩
    · intro draws v hv
      exact absurd hv (hnone draws v)
    · exact yields_drawInteger_of_keeps habove hbelow
  · exact yields_drawInteger_of_keeps (keepsAbove_of_lt habove) (keepsBelow_of_lt hbelow)

/-- Whole numbers above `2 ^ 53` and up to `2 ^ 53 + 2`. -/
def justBehind : Bounds where
  above := some (.integer (Json.WordInt.ofInt 9007199254740992))
  atMost := some (.integer (Json.WordInt.ofInt 9007199254740994))

/-- The same with a lower bound of `2 ^ 53 - 1`. -/
def justBefore : Bounds where
  above := some (.integer (Json.WordInt.ofInt 9007199254740991))
  atMost := justBehind.atMost

/-- The bound `2 ^ 53` itself is drawn, although it is refused. With the bound before it all numbers
that are drawn are accepted. -/
theorem drawInteger_accepted_iff_justBehind :
    (¬ justBehind.drawInteger.Yields fun v => justBehind.accepts .integer v = true)
      ∧ justBefore.drawInteger.Yields fun v => justBefore.accepts .integer v = true := by
  constructor
  · rw [(drawInteger_accepted_iff justBehind).1]
    rintro (hnone | ⟨habove, -⟩)
    · have hdrawn :
          (justBehind.drawInteger.run ⟨id, 0⟩).1 = .ok (Json.ofInt 9007199254740992) := by
        decide +kernel
      exact hnone _ _ hdrawn
    · have hnext := habove 9007199254740993 (by decide +kernel) (by decide +kernel)
      have hback : ¬ ∀ x ∈ justBehind.above?,
          x.units < (Binary64.ofInt 9007199254740993).units := by
        decide +kernel
      exact hback hnext
  · exact (drawInteger_accepted_iff justBefore).2 (by decide +kernel) (by decide +kernel)

end Constraint.Bounds

end HttpContract
