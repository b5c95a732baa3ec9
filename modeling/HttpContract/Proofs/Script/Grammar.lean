import HttpContract.Library.Simple
import HttpContract.Proofs.Script.Complete
import HttpContract.Proofs.Script.Sound

/-!
# Script — the language of expressions

Reading an expression accepts the language of expressions and nothing else: it succeeds behind just
those tokens that are the tokens of an expression with a meaning, and gives that meaning
(`readExpression_iff`). What an object means is told by its fields: under each key it has what the
last field with this key means, if that is anything (`lookup_fieldValues`).
-/

namespace HttpContract.Script

open Expression (fieldValues keys_putField lookup_putField)

variable {bindings : Bindings}

/-! ## What objects mean -/

/-- The last field with a key. -/
def lastField? (key : String) : List (TokenKind × Expression) → Option Expression
  | [] => none
  | (k, e) :: rest => (lastField? key rest).or (if keyOf? k = some key then some e else none)

/-- Under each key there is what the last field with this key means, if it means anything. -/
theorem lookup_fieldValues [Library] (key : String) (fields : List (TokenKind × Expression))
    {before vs : List (String × Constraint)} (h : fieldValues bindings before fields = some vs) :
    vs.lookup key = (lastField? key fields).elim (before.lookup key)
      fun e => (e.value bindings).join := by
  induction fields generalizing before with
  | nil =>
    cases h
    rfl
  | cons f rest ih =>
    obtain ⟨k, e⟩ := f
    rw [fieldValues] at h
    split at h
    · rename_i name v hkey hv
      rw [ih h, lastField?, lookup_putField]
      cases lastField? key rest with
      | some last => rfl
      | none =>
        by_cases hname : key = name
        · subst hname
          simp [hkey, hv]
        · have hother : ¬keyOf? k = some key := by
            rw [hkey, Option.some.injEq]
            exact fun h => hname h.symm
          simp [hname, hother]
    · cases h

theorem keys_fieldValues [Library] (fields : List (TokenKind × Expression))
    {before vs : List (String × Constraint)} (hbefore : (before.map (·.1)).Nodup)
    (h : fieldValues bindings before fields = some vs) : (vs.map (·.1)).Nodup := by
  induction fields generalizing before with
  | nil =>
    cases h
    exact hbefore
  | cons f rest ih =>
    obtain ⟨k, e⟩ := f
    rw [fieldValues] at h
    split at h
    · exact ih (keys_putField _ _ hbefore) h
    · cases h

/-! ## What is read -/

/-- Reading accepts just the expressions with a meaning, within the limits. Where it succeeds, it
stands behind some of the tokens, on the level that it was on. It succeeds having passed over some
tokens if and only if these are the tokens of an expression with a meaning that the limits allow; it
gives this meaning, and the token behind the expression is the current one. An object means what its
last fields with each key mean, without those that mean nothing. -/
theorem readExpression_iff [Library] {setting : Setting} {place : Place} {s : State}
    {ks : List TokenKind} {n d steps : Nat} (h : s.At (.finished place) ks n d)
    (hdepth : d ≤ setting.limits.depth) (htime : setting.limits.noTime = false)
    (hsteps : 2 * ks.length ≤ steps) :
    (∀ v s', (readExpression setting steps).run s = .ok (v, s') →
        ∃ ls m, s'.At (.finished place) ls m d)
      ∧ (∀ v ls m, (∃ s', (readExpression setting steps).run s = .ok (v, s')
            ∧ s'.At (.finished place) ls m d)
          ↔ ∃ e : Expression, ks = e.kinds ++ ls ∧ e.value setting.bindings = some v
            ∧ m = n + e.nodes ∧ m ≤ setting.limits.nodes ∧ d + e.depth ≤ setting.limits.depth)
      ∧ ∀ fields trailing vs,
          (Expression.object fields trailing).value setting.bindings = some (some (.object vs)) →
          (vs.map (·.1)).Nodup
            ∧ ∀ key, vs.lookup key
              = (lastField? key fields).bind fun e => (e.value setting.bindings).join := by
  refine ⟨?_, fun v ls m => ⟨?_, ?_⟩, ?_⟩
  · intro v s' hrun
    obtain ⟨e, ls, -, -, hs', -⟩ := (sound setting steps).expression h hdepth hrun
    exact ⟨ls, _, hs'⟩
  · rintro ⟨s', hrun, hs'⟩
    obtain ⟨e, rest, hks, hv, hat, hnodes, hlevels⟩ :=
      (sound setting steps).expression h hdepth hrun
    have hm : m = n + e.nodes := hs'.nodes.symm.trans hat.nodes
    have hrest : rest = ls := hat.shows.unique hs'.shows
    exact ⟨e, hrest ▸ hks, hv, hm, hm ▸ hnodes, hlevels⟩
  · rintro ⟨e, rfl, hv, rfl, hnodes, hlevels⟩
    rw [List.length_append] at hsteps
    exact (complete htime steps).expression h hv (by omega) hnodes hlevels
  · intro fields trailing vs hvs
    simp only [Expression.value, Option.map_eq_some_iff, Option.some.injEq,
      Constraint.object.injEq, exists_eq_right] at hvs
    refine ⟨keys_fieldValues fields (by simp) hvs, fun key => ?_⟩
    rw [lookup_fieldValues key fields hvs]
    cases lastField? key fields <;> rfl

section Simple

attribute [local instance] Library.simple

theorem readExpression_iff_replaced :
    ∃ s', (readExpression ⟨Bindings.standard, {}⟩ 22).run
        ⟨⟨.symbol .leftBrace, {}⟩, [⟨.identifier "a", {}⟩, ⟨.symbol .colon, {}⟩, ⟨.string "x", {}⟩,
          ⟨.symbol .comma, {}⟩, ⟨.string "a", {}⟩, ⟨.symbol .colon, {}⟩,
          ⟨.identifier "undefined", {}⟩, ⟨.symbol .comma, {}⟩, ⟨.symbol .rightBrace, {}⟩,
          ⟨.symbol .semicolon, {}⟩], .finished {}, 1, 0, 0⟩
        = .ok (some (.object []), s')
      ∧ s'.At (.finished {}) [.symbol .semicolon] 3 0 := by
  let e : Expression := .object [(.identifier "a", .string "x"),
    (.string "a", .word "undefined")] true
  have hstate : State.At ⟨⟨.symbol .leftBrace, {}⟩, [⟨.identifier "a", {}⟩, ⟨.symbol .colon, {}⟩,
      ⟨.string "x", {}⟩, ⟨.symbol .comma, {}⟩, ⟨.string "a", {}⟩, ⟨.symbol .colon, {}⟩,
      ⟨.identifier "undefined", {}⟩, ⟨.symbol .comma, {}⟩, ⟨.symbol .rightBrace, {}⟩,
      ⟨.symbol .semicolon, {}⟩], .finished {}, 1, 0, 0⟩ (.finished {})
      (e.kinds ++ [.symbol .semicolon]) 0 0 :=
    ⟨⟨rfl, rfl, by decide⟩, nofun, rfl, rfl, rfl⟩
  let setting : Setting := ⟨Bindings.standard, {}⟩
  have hdepth : 0 ≤ setting.limits.depth := Nat.zero_le _
  have hsteps : 2 * (e.kinds ++ [TokenKind.symbol .semicolon]).length ≤ 22 := by decide
  have hiff := (readExpression_iff hstate hdepth rfl hsteps).2.1
  exact (hiff _ _ _).mpr ⟨e, rfl, by rfl, rfl, by decide, by decide⟩

end Simple

end HttpContract.Script
