import HttpContract.Constraint.Matcher
import HttpContract.Proofs.Binary64.Middle
import HttpContract.Proofs.Constraint.Range

/-!
# Constraint.Number — bounds that are said to be unsatisfiable

Drawing a number may fail for the reason that no number meets the bounds. This is true unless the
range that is drawn from is `Unreached`: whole numbers that are no signed words, or doubles of which
there is none strictly between the ends (`draw_unsatisfiable_iff`).
-/

namespace HttpContract

/-! ## Repeated draws -/

namespace Sampler

variable {α : Type} {accept : α → Bool} {draw : Sampler α}

theorem apply_bind {β : Type} (draw : Sampler α) (f : α → Sampler β) (draws : Draws) :
    (draw >>= f) draws = f (draw draws).1 (draw draws).2 := rfl

/-- What is always accepted is found in the first attempt. -/
theorem until_isSome (h : draw.Yields fun x => accept x = true) (attempts : Nat) :
    (until? accept draw (attempts + 1)).Yields fun r => r.isSome = true := by
  refine h.bind fun x hx => ?_
  rw [if_pos hx]
  exact .pure rfl

/-- What is always refused is given up in the end. -/
theorem until_isNone (h : draw.Yields fun x => accept x = false) (attempts : Nat) :
    (until? accept draw attempts).Yields fun r => r = none := by
  induction attempts with
  | zero => exact .pure rfl
  | succ attempts ih =>
    refine h.bind fun x hx => ?_
    rw [if_neg (by simp [hx])]
    exact ih

end Sampler

namespace Constraint.Bounds

open Binary64 (one)

/-! ## Ranges -/

theorem contains_congr {b : Bounds} {x y : Binary64} (h : x.units = y.units) :
    b.contains x = b.contains y := by
  unfold contains Binary64.less Binary64.atMost
  rw [h]

/-- A range that is filled in is not turned around. -/
theorem fillIn_le {lo hi : Option Binary64} (h : ∀ l ∈ lo, ∀ u ∈ hi, l.units ≤ u.units) :
    (fillIn lo hi).1.units ≤ (fillIn lo hi).2.units := by
  have hhundred : 0 ≤ hundred.units := by
    have hint : hundred.IsInt 100 := Binary64.isInt_ofInt (by decide)
    have hone := Binary64.one_pos_int
    rw [hint]
    omega
  have hzero : Binary64.zero.units = 0 := by
    rw [show Binary64.zero.units = 0 * one from Binary64.isInt_zero, Int.zero_mul]
  cases lo with
  | none =>
    cases hi with
    | none =>
      simp only [fillIn, hzero]
      exact hhundred
    | some u =>
      simp only [fillIn, Binary64.less, hzero, decide_eq_true_eq]
      split
      · omega
      · rw [Binary64.units_add, Binary64.units_negate]
        refine Int.le_trans (Binary64.ofSignedUnits_mono Nat.one_pos ?_)
          (Int.le_of_eq u.ofSignedUnits_units)
        omega
  | some l =>
    cases hi with
    | some u => exact h l rfl u rfl
    | none =>
      simp only [fillIn, Binary64.less, hzero, decide_eq_true_eq]
      split
      · omega
      · rw [Binary64.units_add]
        refine Int.le_trans (Int.le_of_eq l.ofSignedUnits_units.symm)
          (Binary64.ofSignedUnits_mono Nat.one_pos ?_)
        omega

/-- The tighter one of the lower bounds. -/
def leastAllowed (b : Bounds) : Option Binary64 := tightest Binary64.larger b.above? b.atLeast?

/-- The tighter one of the upper bounds. -/
def greatestAllowed (b : Bounds) : Option Binary64 := tightest Binary64.smaller b.below? b.atMost?

section Floats

variable {b : Bounds} {x : Binary64}

theorem leastAllowed_le (h : b.contains x = true) : ∀ l ∈ b.leastAllowed, l.units ≤ x.units := by
  obtain ⟨⟨habove, hatLeast⟩, -⟩ := contains_iff.mp h
  exact tightest_larger_le.mpr ⟨fun l hl => Int.le_of_lt (habove l hl), hatLeast⟩

theorem le_greatestAllowed (h : b.contains x = true) :
    ∀ u ∈ b.greatestAllowed, x.units ≤ u.units := by
  obtain ⟨-, hbelow, hatMost⟩ := contains_iff.mp h
  exact le_tightest_smaller.mpr ⟨fun u hu => Int.le_of_lt (hbelow u hu), hatMost⟩

theorem floatEnds_eq (b : Bounds) : b.floatEnds = fillIn b.leastAllowed b.greatestAllowed := rfl

theorem floatEnds_of_least : ∀ l ∈ b.leastAllowed, b.floatEnds.1 = l := by
  intro l hl
  rw [floatEnds_eq, Option.mem_def.mp hl]
  cases b.greatestAllowed <;> rfl

theorem floatEnds_of_greatest : ∀ u ∈ b.greatestAllowed, b.floatEnds.2 = u := by
  intro u hu
  rw [floatEnds_eq, Option.mem_def.mp hu]
  cases b.leastAllowed <;> rfl

theorem meets_lower (h : ∀ l ∈ b.leastAllowed, l.units < x.units) :
    (∀ l ∈ b.above?, l.units < x.units) ∧ ∀ l ∈ b.atLeast?, l.units ≤ x.units := by
  have hleast : ∀ l ∈ b.leastAllowed, l.units ≤ x.units - 1 := fun l hl => by
    have := h l hl
    omega
  obtain ⟨habove, hatLeast⟩ := tightest_larger_le.mp hleast
  refine ⟨fun l hl => ?_, fun l hl => ?_⟩
  · have := habove l hl
    omega
  · have := hatLeast l hl
    omega

theorem meets_upper (h : ∀ u ∈ b.greatestAllowed, x.units < u.units) :
    (∀ u ∈ b.below?, x.units < u.units) ∧ ∀ u ∈ b.atMost?, x.units ≤ u.units := by
  have hgreatest : ∀ u ∈ b.greatestAllowed, x.units + 1 ≤ u.units := h
  obtain ⟨hbelow, hatMost⟩ := le_tightest_smaller.mp hgreatest
  refine ⟨fun u hu => ?_, fun u hu => ?_⟩
  · have := hbelow u hu
    omega
  · have := hatMost u hu
    omega

theorem meets_of_lt (h : b.floatEnds.1.units < x.units) :
    (∀ l ∈ b.above?, l.units < x.units) ∧ ∀ l ∈ b.atLeast?, l.units ≤ x.units :=
  meets_lower fun l hl => floatEnds_of_least l hl ▸ h

theorem meets_of_gt (h : x.units < b.floatEnds.2.units) :
    (∀ u ∈ b.below?, x.units < u.units) ∧ ∀ u ∈ b.atMost?, x.units ≤ u.units :=
  meets_upper fun u hu => floatEnds_of_greatest u hu ▸ h

/-- What lies strictly between the ends is accepted. -/
theorem contains_inside (hlo : b.floatEnds.1.units < x.units)
    (hhi : x.units < b.floatEnds.2.units) : b.contains x = true :=
  contains_iff.mpr ⟨meets_of_lt hlo, meets_of_gt hhi⟩

/-- If the lower end is accepted, so is everything that is drawn from the range. -/
theorem contains_from (hfirst : b.contains b.floatEnds.1 = true)
    (hlo : b.floatEnds.1.units ≤ x.units) (hhi : x.units < b.floatEnds.2.units) :
    b.contains x = true := by
  by_cases heq : b.floatEnds.1.units = x.units
  · rw [← contains_congr heq]
    exact hfirst
  · exact contains_inside (by omega) hhi

/-- If nothing lies between the ends and the lower one is refused, what is accepted is the upper
one. -/
theorem contains_last (hx : b.contains x = true) (hlt : b.floatEnds.1.units < b.floatEnds.2.units)
    (hrefused : b.contains b.floatEnds.1 = false)
    (hnarrow : ∀ y : Binary64,
      ¬ (b.floatEnds.1.units < y.units ∧ y.units < b.floatEnds.2.units)) :
    b.contains b.floatEnds.2 = true := by
  refine contains_iff.mpr ⟨meets_of_lt hlt, ?_⟩
  cases hleast : b.leastAllowed with
  | none =>
    -- without a lower bound the lower end would be accepted
    have hfirst : b.contains b.floatEnds.1 = true :=
      contains_iff.mpr ⟨meets_lower (by simp [hleast]), meets_of_gt hlt⟩
    rw [hrefused] at hfirst
    cases hfirst
  | some l =>
    cases hgreatest : b.greatestAllowed with
    | none => exact meets_upper (by simp [hgreatest])
    | some u =>
      have hlow := leastAllowed_le hx l hleast
      have hhigh := le_greatestAllowed hx u hgreatest
      rw [← floatEnds_of_least l hleast] at hlow
      rw [← floatEnds_of_greatest u hgreatest] at hhigh
      have hne : x.units ≠ b.floatEnds.1.units := by
        intro heq
        rw [contains_congr heq, hrefused] at hx
        cases hx
      have heq : x.units = b.floatEnds.2.units := by
        have := hnarrow x
        omega
      rw [contains_congr heq] at hx
      exact (contains_iff.mp hx).2

/-- The ends are not turned around if some double is accepted. -/
theorem floatEnds_le (h : b.contains x = true) : b.floatEnds.1.units ≤ b.floatEnds.2.units := by
  refine fillIn_le fun l hl u hu => ?_
  exact Int.le_trans (leastAllowed_le h l hl) (le_greatestAllowed h u hu)

end Floats

/-! ## Drawing doubles -/

theorem run_drawFloat [Library] (b : Bounds) (draws : Draws) :
    (b.drawFloat.run draws).1
      = if b.floatEnds.2.units < b.floatEnds.1.units
        then .error (.reason (.emptyRange .float b.floatEnds.1 b.floatEnds.2 b))
        else match (b.drawWithin? b.floatEnds.1 b.floatEnds.2 draws).1 with
          | some x => .ok (.number (.float x))
          | none => .error (.reason (.emptyRange .float b.floatEnds.1 b.floatEnds.2 b)) := by
  unfold drawFloat
  simp only [Binary64.less, decide_eq_true_eq]
  split
  · rfl
  · rw [Attempt.run_sample_bind]
    cases (b.drawWithin? b.floatEnds.1 b.floatEnds.2 draws).1 <;> rfl

theorem run_drawWithin? [Library] (b : Bounds) (lo hi : Binary64) (draws : Draws) :
    (b.drawWithin? lo hi draws).1
      = if lo.units = hi.units then (some lo).filter b.contains
        else (Sampler.until? b.contains (drawBetween lo hi) Error.attempts draws).1.or
          ((some (middle lo hi)).filter b.contains) := by
  by_cases hsame : lo.units = hi.units
  · rw [if_pos hsame, drawWithin?, if_pos (show lo.same hi = true from beq_iff_eq.mpr hsame)]
    rfl
  · rw [if_neg hsame, drawWithin?, if_neg (show ¬ lo.same hi = true from mt beq_iff_eq.mp hsame)]
    rw [Sampler.apply_bind]
    cases (Sampler.until? b.contains (drawBetween lo hi) Error.attempts draws).1 <;> rfl

theorem filter_some_eq_none {p : Binary64 → Bool} {x : Binary64} :
    (some x).filter p = none ↔ p x = false := by
  simp [Option.filter]

/-- A range that is too wide for a double has ends on both sides of zero. -/
theorem zero_inside_of_isWide {lo hi : Binary64} (h : isWide lo hi = true) :
    lo.units < Binary64.zero.units ∧ Binary64.zero.units < hi.units := by
  have hzero : Binary64.zero.units = 0 := by
    rw [show Binary64.zero.units = 0 * one from Binary64.isInt_zero, Int.zero_mul]
  have hfar : 2047 * binade ≤ Binary64.nearest (hi.units - lo.units).toNat 1 := by
    by_contra hnear
    rw [isWide, Binary64.ofUnits?, dif_pos (Nat.not_le.mp hnear)] at h
    cases h
  -- a distance that is no greater than a double is not too great for one
  have hbeyond (x : Binary64) : x.units.natAbs < (hi.units - lo.units).toNat := by
    by_contra hle
    have hmono := Binary64.nearest_mono Nat.one_pos (Nat.not_lt.mp hle)
    rw [← Binary64.unitsOf_magnitude, Binary64.nearest_unitsOf] at hmono
    have hfinite := x.finite
    omega
  have hlo := hbeyond lo
  have hhi := hbeyond hi
  omega

/-- A double of a range that is not too wide lies in it. -/
theorem yields_drawBetween [Library] {lo hi : Binary64} (h : lo.units < hi.units)
    (hwide : isWide lo hi = false) :
    (drawBetween lo hi).Yields fun x => lo.units ≤ x.units ∧ x.units < hi.units := by
  rw [drawBetween, if_neg (by simp [hwide])]
  have hany : (Library.double lo hi).Yields fun _ => True := fun _ => trivial
  refine hany.bind fun x _ => .pure ?_
  obtain ⟨hlow, hhigh⟩ := x.property (decide_eq_true h)
  exact ⟨of_decide_eq_true hlow, of_decide_eq_true hhigh⟩

/-! ## Unreached numbers -/

/-- The range that doubles are drawn from holds at most its ends, and the lower one is both refused
and the middle of the range, as it is computed. -/
structure Cramped (b : Bounds) : Prop where
  narrow : ∀ x : Binary64, ¬ (b.floatEnds.1.units < x.units ∧ x.units < b.floatEnds.2.units)
  refused : b.contains b.floatEnds.1 = false
  centre : b.floatEnds.1.units = b.floatEnds.2.units
    ∨ (middle b.floatEnds.1 b.floatEnds.2).units = b.floatEnds.1.units

/-- Some number is accepted, but the range that is drawn from does not reach any: whole numbers that
are no signed words, or doubles that leave no room between them. -/
def Unreached (kind : NumberKind) (b : Bounds) : Prop :=
  (∃ v, b.accepts kind v = true) ∧ match kind with
    | .integer => b.integerEnds.1.units < -2 ^ 63 * one ∨ 2 ^ 63 * one < b.integerEnds.2.units
    | .float => b.Cramped

/-- A range that holds at most its ends is not too wide. -/
theorem Cramped.not_isWide {b : Bounds}
    (hnarrow : ∀ x : Binary64,
      ¬ (b.floatEnds.1.units < x.units ∧ x.units < b.floatEnds.2.units)) :
    isWide b.floatEnds.1 b.floatEnds.2 = false := by
  by_contra hwide
  exact hnarrow Binary64.zero (zero_inside_of_isWide (by simpa using hwide))

/-- Where drawing a double fails although one is accepted, the range is cramped. -/
theorem cramped_of_error [Library] {b : Bounds} {x : Binary64} (hx : b.contains x = true)
    {draws : Draws} {e : Failure Error} (h : (b.drawFloat.run draws).1 = .error e) :
    b.Cramped := by
  have hle := floatEnds_le hx
  rw [run_drawFloat, if_neg (by omega)] at h
  have hnone : (b.drawWithin? b.floatEnds.1 b.floatEnds.2 draws).1 = none := by
    split at h
    · cases h
    · next hnone => exact hnone
  rw [run_drawWithin?] at hnone
  by_cases hsame : b.floatEnds.1.units = b.floatEnds.2.units
  · rw [if_pos hsame, filter_some_eq_none] at hnone
    exact ⟨fun y => by omega, hnone, .inl hsame⟩
  · rw [if_neg hsame, Option.or_eq_none_iff, filter_some_eq_none] at hnone
    obtain ⟨hgiven, hmiddle⟩ := hnone
    have hlt : b.floatEnds.1.units < b.floatEnds.2.units := by omega
    have hnarrow : ∀ y : Binary64,
        ¬ (b.floatEnds.1.units < y.units ∧ y.units < b.floatEnds.2.units) := by
      rintro y ⟨hlow, hhigh⟩
      have hinside := contains_inside (b := b) (x := middle b.floatEnds.1 b.floatEnds.2)
        (Binary64.lt_middle hlow hhigh) (Binary64.middle_lt hlow hhigh)
      rw [hmiddle] at hinside
      cases hinside
    have hrefused : b.contains b.floatEnds.1 = false := by
      by_contra hfirst
      rw [Bool.not_eq_false] at hfirst
      have haccepted := (yields_drawBetween hlt (Cramped.not_isWide hnarrow)).mono
        fun y hy => contains_from hfirst hy.1 hy.2
      have hfound := Sampler.until_isSome haccepted 31 draws
      rw [show 31 + 1 = Error.attempts from rfl, hgiven] at hfound
      cases hfound
    have hcentre := Binary64.middle_bounds hlt
    have hends := hnarrow (middle b.floatEnds.1 b.floatEnds.2)
    refine ⟨hnarrow, hrefused, .inr ?_⟩
    by_contra hne
    -- then the middle is the upper end, and that is accepted if anything is
    have hlast := contains_last hx hlt hrefused hnarrow
    rw [contains_congr (show b.floatEnds.2.units
      = (middle b.floatEnds.1 b.floatEnds.2).units by unfold middle at *; omega), hmiddle] at hlast
    cases hlast

/-- In a cramped range nothing is found. -/
theorem Cramped.error [Library] {b : Bounds} (h : b.Cramped) (draws : Draws) :
    (b.drawFloat.run draws).1
      = .error (.reason (.emptyRange .float b.floatEnds.1 b.floatEnds.2 b)) := by
  rw [run_drawFloat]
  by_cases hturned : b.floatEnds.2.units < b.floatEnds.1.units
  · rw [if_pos hturned]
  rw [if_neg hturned]
  have hnone : (b.drawWithin? b.floatEnds.1 b.floatEnds.2 draws).1 = none := by
    rw [run_drawWithin?]
    by_cases hsame : b.floatEnds.1.units = b.floatEnds.2.units
    · rw [if_pos hsame, filter_some_eq_none]
      exact h.refused
    · have hlt : b.floatEnds.1.units < b.floatEnds.2.units := by omega
      -- every draw is the lower end
      have hrefused : (drawBetween b.floatEnds.1 b.floatEnds.2).Yields
          fun x => b.contains x = false := by
        refine (yields_drawBetween hlt (not_isWide h.narrow)).mono fun x hx => ?_
        have hinside := h.narrow x
        rw [← contains_congr (show b.floatEnds.1.units = x.units by omega)]
        exact h.refused
      rw [if_neg hsame, Option.or_eq_none_iff, filter_some_eq_none,
        contains_congr (h.centre.resolve_left hsame)]
      exact ⟨Sampler.until_isNone hrefused _ draws, h.refused⟩
  rw [hnone]

/-- The number of a value that is accepted. -/
theorem accepts_iff {kind : NumberKind} {b : Bounds} {v : Json} :
    b.accepts kind v = true ↔ ∃ x, numberOf? v = some x
      ∧ (kind = .integer → x.isWhole = true) ∧ b.contains x = true := by
  unfold accepts
  cases numberOf? v with
  | none => simp
  | some x => cases kind <;> simp

/-- Where the range of whole numbers has none for a number that is accepted, it leaves the words. -/
theorem leaves_words_of_error {b : Bounds} {x : Binary64} (hwhole : x.isWhole = true)
    (hx : b.contains x = true) {e : Error} (h : b.integerRange = .error e) :
    b.integerEnds.1.units < -2 ^ 63 * one ∨ 2 ^ 63 * one < b.integerEnds.2.units := by
  obtain ⟨k, hk⟩ := Binary64.exists_isInt hwhole
  obtain ⟨⟨habove, hatLeast⟩, hbelow, hatMost⟩ := contains_iff.mp hx
  rw [hk] at habove hatLeast hbelow hatMost
  have hle : b.integerEnds.1.units ≤ b.integerEnds.2.units := by
    rw [integerEnds_eq]
    refine fillIn_le fun l hl u hu => ?_
    exact Int.le_trans (lower_le_ofInt habove hatLeast l hl) (ofInt_le_upper hbelow hatMost u hu)
  rw [integerRange_eq] at h
  split at h
  · omega
  · cases h

/-- Where drawing a number fails for the reason that no number meets the bounds, no number is
accepted, unless the range that is drawn from does not reach those that are. -/
theorem draw_unsatisfiable_iff [Library] (kind : NumberKind) (b : Bounds)
    (now : Calendar.Instant) :
    (∀ draws e, (((Matcher.number kind b).draw now).run draws).1 = .error (.reason e) →
        e.kind = .unsatisfiable → ∀ v, (Matcher.number kind b).accepts v = false)
      ↔ ¬ b.Unreached kind := by
  constructor
  · rintro hsound ⟨⟨v, hv⟩, hmissed⟩
    have hfails : ∃ draws e, ((b.draw kind).run draws).1 = .error (.reason e)
        ∧ e.kind = .unsatisfiable := by
      refine ⟨⟨fun _ => 0, 0⟩, ?_⟩
      cases kind with
      | float => exact ⟨_, Cramped.error hmissed _, rfl⟩
      | integer =>
        refine ⟨.emptyRange .integer b.integerEnds.1 b.integerEnds.2 b, ?_, rfl⟩
        show (b.drawInteger.run _).1 = _
        rw [run_drawInteger, integerRange_eq, if_pos (.inr hmissed)]
        rfl
    obtain ⟨draws, e, he, hkind⟩ := hfails
    have hrefused := hsound draws e he hkind v
    rw [show (Matcher.number kind b).accepts v = b.accepts kind v from rfl, hv] at hrefused
    cases hrefused
  · intro hreached draws e he _ v
    by_contra haccepted
    rw [Bool.not_eq_false] at haccepted
    refine hreached ⟨⟨v, haccepted⟩, ?_⟩
    obtain ⟨x, -, hwhole, hx⟩ := accepts_iff.mp haccepted
    cases kind with
    | float => exact cramped_of_error hx he
    | integer =>
      have he : (b.drawInteger.run draws).1 = .error (.reason e) := he
      rw [run_drawInteger] at he
      cases hrange : b.integerRange with
      | error e' => exact leaves_words_of_error (hwhole rfl) hx hrange
      | ok ends =>
        rw [hrange] at he
        cases he

end Constraint.Bounds

end HttpContract
