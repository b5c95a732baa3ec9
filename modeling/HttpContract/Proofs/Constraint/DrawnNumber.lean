import HttpContract.Proofs.Constraint.Range

/-!
# Constraint.Number — drawn numbers lie within their bounds

A drawn double is checked before it is given. A drawn whole number is not, but where no bound is
greater than `2 ^ 52`, the range that it comes from holds nothing but whole numbers within the
bounds (`yields_drawInteger`).
-/

namespace HttpContract

/-- A number of at most `2 ^ 52`, whatever its sign. -/
def Json.Number.IsModerate : Json.Number → Prop
  | .integer n => n.val.natAbs ≤ 2 ^ 52
  | .float x => x.units.natAbs ≤ 2 ^ 52 * Binary64.one

instance (n : Json.Number) : Decidable n.IsModerate := by
  cases n <;> unfold Json.Number.IsModerate <;> infer_instance

namespace Constraint.Bounds

open Binary64 (one)

/-- Bounds of at most `2 ^ 52`. -/
structure IsModerate (b : Bounds) : Prop where
  above : ∀ n ∈ b.above, n.IsModerate
  atLeast : ∀ n ∈ b.atLeast, n.IsModerate
  below : ∀ n ∈ b.below, n.IsModerate
  atMost : ∀ n ∈ b.atMost, n.IsModerate

instance (b : Bounds) : Decidable b.IsModerate :=
  decidable_of_iff ((∀ n ∈ b.above, n.IsModerate) ∧ (∀ n ∈ b.atLeast, n.IsModerate)
    ∧ (∀ n ∈ b.below, n.IsModerate) ∧ ∀ n ∈ b.atMost, n.IsModerate)
    ⟨fun h => ⟨h.1, h.2.1, h.2.2.1, h.2.2.2⟩, fun h => ⟨h.above, h.atLeast, h.below, h.atMost⟩⟩

theorem units_le_of_isModerate {n : Json.Number} (h : n.IsModerate) :
    n.units.natAbs ≤ 2 ^ 52 * one := by
  cases n with
  | float x => exact h
  | integer n =>
    rw [Json.Number.units, Int.natAbs_mul, Int.natAbs_natCast]
    exact Nat.mul_le_mul_right _ h

theorem units_lt_of_isModerate {n : Json.Number} (h : n.IsModerate) :
    n.units.natAbs < 2 ^ 53 * one :=
  Nat.lt_of_le_of_lt (units_le_of_isModerate h)
    (Nat.mul_lt_mul_of_pos_right (by decide) Binary64.one_pos)

/-! ## Drawing -/

/-- A drawn whole number is accepted. -/
theorem yields_drawInteger {b : Bounds} (hb : b.IsModerate) :
    b.drawInteger.Yields fun v => b.accepts .integer v = true :=
  yields_drawInteger_of_keeps
    (keepsAbove_of_lt fun m hm => units_lt_of_isModerate (hb.above m hm))
    (keepsBelow_of_lt fun m hm => units_lt_of_isModerate (hb.below m hm))

theorem yields_drawWithin [Library] (b : Bounds) (lo hi : Binary64) :
    (b.drawWithin? lo hi).Yields fun r => ∀ x ∈ r, b.contains x = true := by
  have hfilter : ∀ x, ∀ y ∈ (some x).filter b.contains, b.contains y = true := fun x y hy =>
    (Option.filter_eq_some_iff.mp hy).2
  unfold drawWithin?
  split
  · exact .pure (hfilter lo)
  · refine (Sampler.yields_until Error.attempts).bind fun r hr => ?_
    cases r with
    | some x => exact .pure hr
    | none => exact .pure (hfilter _)

/-- A drawn double is accepted. -/
theorem yields_drawFloat [Library] (b : Bounds) :
    b.drawFloat.Yields fun v => b.accepts .float v = true := by
  unfold drawFloat
  simp only
  split
  · exact .fail
  · refine (Attempt.Yields.sample (yields_drawWithin b _ _)).bind fun r hr => ?_
    cases r with
    | none => exact .fail
    | some x =>
      refine .pure ?_
      simpa [accepts, numberOf?, Json.Number.toBinary64] using hr x rfl

end Constraint.Bounds

end HttpContract
