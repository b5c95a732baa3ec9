import HttpContract.Proofs.Script.Reader

/-!
# Script — expressions with a meaning are read

Where the tokens of an expression with a meaning stand, within the limits, reading gives that
meaning and goes on behind them, having used up the nodes of the expression. The proof is by
induction on the steps, all five reading functions at once: `Complete` is what is shown of them.
-/

namespace HttpContract.Script

open Reader
open Expression (fieldKinds itemKinds fieldValues itemValues fieldNodes itemNodes fieldDepth
  itemDepth)

variable {setting : Setting} {place : Place} {steps : Nat} {s : State} {ks : List TokenKind}
  {n d : Nat}

/-- Every expression, field, item and argument with a meaning is read in so many steps. -/
structure Complete [Library] (setting : Setting) (place : Place) (steps : Nat) : Prop where
  expression {e : Expression} {s : State} {ks : List TokenKind} {n d : Nat}
    {v : Option Constraint} (h : s.At (.finished place) (e.kinds ++ ks) n d)
    (hv : e.value setting.bindings = some v) (hsteps : 2 * e.kinds.length ≤ steps)
    (hnodes : n + e.nodes ≤ setting.limits.nodes) (hdepth : d + e.depth ≤ setting.limits.depth) :
    ∃ s', (readExpression setting steps).run s = .ok (v, s')
      ∧ s'.At (.finished place) ks (n + e.nodes) d
  call {name : String} {es : List Expression} {trailing : Bool} {b : Builtin} {s : State}
    {ks : List TokenKind} {n d : Nat} {vs : List (Option Constraint)} {c : Constraint}
    (h : s.At (.finished place) (.identifier name :: .symbol .leftParen
      :: (itemKinds trailing es ++ .symbol .rightParen :: ks)) n d)
    (hname : isCallable name = true) (hb : setting.bindings.lookup name = some b)
    (hvs : itemValues setting.bindings es = some vs) (hc : b.apply vs = .ok c)
    (hsteps : 2 * (itemKinds trailing es).length + 2 ≤ steps)
    (hnodes : n + itemNodes es ≤ setting.limits.nodes)
    (hdepth : d + 1 + itemDepth es ≤ setting.limits.depth) :
    ∃ s', (readNamed setting name steps).run s = .ok (some c, s')
      ∧ s'.At (.finished place) ks (n + itemNodes es) d
  fields {fs : List (TokenKind × Expression)} {trailing : Bool}
    {before : List (String × Constraint)} {s : State} {ks : List TokenKind} {n d : Nat}
    {vs : List (String × Constraint)}
    (h : s.At (.finished place) (fieldKinds trailing fs ++ .symbol .rightBrace :: ks) n (d + 1))
    (hv : fieldValues setting.bindings before fs = some vs)
    (hsteps : 2 * (fieldKinds trailing fs).length + 1 ≤ steps)
    (hnodes : n + fieldNodes fs ≤ setting.limits.nodes)
    (hdepth : d + 1 + fieldDepth fs ≤ setting.limits.depth) :
    ∃ s', (readFields setting steps before).run s = .ok (vs, s')
      ∧ s'.At (.finished place) ks (n + fieldNodes fs) d
  items {es : List Expression} {trailing : Bool} {s : State} {ks : List TokenKind} {n d : Nat}
    {vs : List (Option Constraint)}
    (h : s.At (.finished place) (itemKinds trailing es ++ .symbol .rightBracket :: ks) n (d + 1))
    (hv : itemValues setting.bindings es = some vs)
    (hsteps : 2 * (itemKinds trailing es).length + 1 ≤ steps)
    (hnodes : n + itemNodes es ≤ setting.limits.nodes)
    (hdepth : d + 1 + itemDepth es ≤ setting.limits.depth) :
    ∃ s', (readItems setting steps).run s = .ok (vs.map fun v => v.getD (.constant .null), s')
      ∧ s'.At (.finished place) ks (n + itemNodes es) d
  arguments {es : List Expression} {trailing : Bool} {s : State} {ks : List TokenKind} {n d : Nat}
    {vs : List (Option Constraint)}
    (h : s.At (.finished place) (itemKinds trailing es ++ .symbol .rightParen :: ks) n (d + 1))
    (hv : itemValues setting.bindings es = some vs)
    (hsteps : 2 * (itemKinds trailing es).length + 1 ≤ steps)
    (hnodes : n + itemNodes es ≤ setting.limits.nodes)
    (hdepth : d + 1 + itemDepth es ≤ setting.limits.depth) :
    ∃ s', (readArguments setting steps).run s = .ok (vs, s')
      ∧ s'.At (.finished place) ks (n + itemNodes es) d

theorem readNamed_word [Library] {name : String} {v : Option Constraint}
    (h : s.At (.finished place) (.identifier name :: ks) n d) (hname : isWord name = true)
    (hv : wordValue? name = some v) (htime : setting.limits.noTime = false) :
    ∃ s', (readNamed setting name (steps + 1)).run s = .ok (v, s')
      ∧ s'.At (.finished place) ks n d := by
  obtain ⟨hforbidden, -⟩ := isWord_iff.mp hname
  obtain ⟨s', hrun, hs'⟩ := h.advance_run htime
  refine ⟨s', ?_, hs'⟩
  unfold readNamed
  simp only [List.contains_iff_mem, hforbidden, if_false]
  rw [run_bind_ok]
  refine ⟨(), s', hrun, ?_⟩
  simp only [hv]
  rfl

theorem readNamed_step [Library] (ih : Complete setting place steps)
    (htime : setting.limits.noTime = false) {name : String} {es : List Expression}
    {trailing : Bool} {b : Builtin} {vs : List (Option Constraint)} {c : Constraint}
    (h : s.At (.finished place) (.identifier name :: .symbol .leftParen
      :: (itemKinds trailing es ++ .symbol .rightParen :: ks)) n d)
    (hname : isCallable name = true) (hb : setting.bindings.lookup name = some b)
    (hvs : itemValues setting.bindings es = some vs) (hc : b.apply vs = .ok c)
    (hsteps : 2 * (itemKinds trailing es).length + 2 ≤ steps + 1)
    (hnodes : n + itemNodes es ≤ setting.limits.nodes)
    (hdepth : d + 1 + itemDepth es ≤ setting.limits.depth) :
    ∃ s', (readNamed setting name (steps + 1)).run s = .ok (some c, s')
      ∧ s'.At (.finished place) ks (n + itemNodes es) d := by
  obtain ⟨hforbidden, hword⟩ := isCallable_iff.mp hname
  obtain ⟨s1, hrun1, hs1⟩ := h.advance_run htime
  obtain ⟨s2, s3, hadvance, henter, hs3⟩ := hs1.open_run (by omega) htime
  obtain ⟨s4, hread, hs4⟩ := ih.arguments hs3 hvs (by omega) hnodes hdepth
  refine ⟨s4, ?_, hs4⟩
  unfold readNamed
  simp only [List.contains_iff_mem, hforbidden, if_false]
  refine run_bind_ok.mpr ⟨(), s1, hrun1, ?_⟩
  simp only [hword]
  rw [peek_bind, if_neg (by rw [hs1.kind]; simp)]
  simp only [hb]
  refine run_bind_ok.mpr ⟨(), s2, hadvance, run_bind_ok.mpr ⟨(), s3, henter, ?_⟩⟩
  refine run_bind_ok.mpr ⟨vs, s4, hread, ?_⟩
  simp only [hc]
  rfl

/-- A node is counted before the first token of an expression is looked at. -/
theorem State.At.countNode_run (h : s.At (.finished place) ks n d)
    (hnodes : n + 1 ≤ setting.limits.nodes) :
    ∃ s', s'.At (.finished place) ks (n + 1) d
      ∧ ∀ {α : Type} (f : Unit → Reader α), (countNode setting >>= f).run s = (f ()).run s' := by
  obtain ⟨s', hs', hrun⟩ : ∃ s', s'.At (.finished place) ks (n + 1) d
      ∧ (countNode setting).run s = .ok ((), s') :=
    ⟨_, h.counted, run_countNode_ok.mpr ⟨by rwa [h.nodes], rfl⟩⟩
  refine ⟨s', hs', fun f => ?_⟩
  rw [StateT.run_bind, hrun]
  rfl

/-- The number behind a sign. -/
theorem State.At.readSigned_run [Library] {x : Json.Number}
    (h : s.At (.finished place) (.number x :: ks) n d) (htime : setting.limits.noTime = false)
    (negative : Bool) :
    ∃ s', (readSigned setting negative).run s
        = .ok (some (.constant (.number (if negative then negated x else x))), s')
      ∧ s'.At (.finished place) ks n d := by
  obtain ⟨s', hrun, hs'⟩ := h.advance_run htime
  refine ⟨s', ?_, hs'⟩
  rw [readSigned, peek_bind, h.kind]
  exact run_bind_ok.mpr ⟨(), s', hrun, rfl⟩

theorem readExpression_step [Library] (ih : Complete setting place steps)
    (htime : setting.limits.noTime = false) {e : Expression} {v : Option Constraint}
    (h : s.At (.finished place) (e.kinds ++ ks) n d) (hv : e.value setting.bindings = some v)
    (hsteps : 2 * e.kinds.length ≤ steps + 1) (hnodes : n + e.nodes ≤ setting.limits.nodes)
    (hdepth : d + e.depth ≤ setting.limits.depth) :
    ∃ s', (readExpression setting (steps + 1)).run s = .ok (v, s')
      ∧ s'.At (.finished place) ks (n + e.nodes) d := by
  have hpos : 0 < e.nodes := by cases e <;> simp only [Expression.nodes] <;> omega
  have hn : n + 1 ≤ setting.limits.nodes := by omega
  obtain ⟨s0, h1, hcount⟩ := h.countNode_run hn
  unfold readExpression
  rw [hcount, peek_bind]
  cases e with
  | word name =>
    simp only [Expression.value, Option.ite_none_right_eq_some] at hv
    simp only [Expression.kinds, List.length_singleton] at hsteps
    obtain ⟨steps, rfl⟩ := Nat.exists_eq_add_one_of_ne_zero (show steps ≠ 0 by omega)
    simp only [h1.kind]
    exact readNamed_word h1 hv.1 hv.2 htime
  | string x =>
    cases hv
    obtain ⟨s', hrun, hs'⟩ := h1.advance_run htime
    simp only [h1.kind]
    exact ⟨s', run_bind_ok.mpr ⟨(), s', hrun, rfl⟩, hs'⟩
  | number x =>
    cases hv
    obtain ⟨s', hrun, hs'⟩ := h1.advance_run htime
    simp only [h1.kind]
    exact ⟨s', run_bind_ok.mpr ⟨(), s', hrun, rfl⟩, hs'⟩
  | signed negative x =>
    cases hv
    obtain ⟨s1, hrun1, hs1⟩ := h1.advance_run htime
    obtain ⟨s2, hread, hs2⟩ := hs1.readSigned_run htime negative
    cases negative with
    | true =>
      simp only [h1.kind, signSymbol, if_true]
      exact ⟨s2, run_bind_ok.mpr ⟨(), s1, hrun1, hread⟩, hs2⟩
    | false =>
      simp only [h1.kind, signSymbol, Bool.false_eq_true, if_false]
      exact ⟨s2, run_bind_ok.mpr ⟨(), s1, hrun1, hread⟩, hs2⟩
  | object fs trailing =>
    simp only [Expression.value, Option.map_eq_some_iff] at hv
    obtain ⟨vs, hvs, rfl⟩ := hv
    simp only [Expression.kinds, List.length_cons, List.length_append, List.length_nil] at hsteps
    simp only [Expression.nodes] at hnodes ⊢
    simp only [Expression.depth] at hdepth
    rw [Expression.kinds, List.cons_append, List.append_assoc] at h1
    obtain ⟨s1, s2, hadvance, henter, hs2⟩ := h1.open_run (by omega) htime
    obtain ⟨s3, hread, hs3⟩ := ih.fields hs2 hvs (by omega) (by omega) (by omega)
    simp only [h1.kind]
    refine ⟨s3, ?_, by rwa [← Nat.add_assoc]⟩
    refine run_bind_ok.mpr ⟨(), s1, hadvance, run_bind_ok.mpr ⟨(), s2, henter, ?_⟩⟩
    exact run_bind_ok.mpr ⟨_, s3, hread, rfl⟩
  | array es trailing =>
    simp only [Expression.value, Option.map_eq_some_iff] at hv
    obtain ⟨vs, hvs, rfl⟩ := hv
    simp only [Expression.kinds, List.length_cons, List.length_append, List.length_nil] at hsteps
    simp only [Expression.nodes] at hnodes ⊢
    simp only [Expression.depth] at hdepth
    rw [Expression.kinds, List.cons_append, List.append_assoc] at h1
    obtain ⟨s1, s2, hadvance, henter, hs2⟩ := h1.open_run (by omega) htime
    obtain ⟨s3, hread, hs3⟩ := ih.items hs2 hvs (by omega) (by omega) (by omega)
    simp only [h1.kind]
    refine ⟨s3, ?_, by rwa [← Nat.add_assoc]⟩
    refine run_bind_ok.mpr ⟨(), s1, hadvance, run_bind_ok.mpr ⟨(), s2, henter, ?_⟩⟩
    exact run_bind_ok.mpr ⟨_, s3, hread, rfl⟩
  | call name es trailing =>
    obtain ⟨hname, b, vs, c, hb, hvs, happly, rfl⟩ := Expression.value_call hv
    simp only [Expression.kinds, List.length_cons, List.length_append, List.length_nil] at hsteps
    simp only [Expression.nodes] at hnodes ⊢
    simp only [Expression.depth] at hdepth
    rw [Expression.kinds, List.cons_append, List.cons_append, List.append_assoc] at h1
    simp only [h1.kind]
    rw [← Nat.add_assoc]
    exact ih.call h1 hname hb hvs happly (by omega) (by omega) (by omega)

theorem readFields_step [Library] (ih : Complete setting place steps)
    (htime : setting.limits.noTime = false) {fs : List (TokenKind × Expression)} {trailing : Bool}
    {before vs : List (String × Constraint)}
    (h : s.At (.finished place) (fieldKinds trailing fs ++ .symbol .rightBrace :: ks) n (d + 1))
    (hv : fieldValues setting.bindings before fs = some vs)
    (hsteps : 2 * (fieldKinds trailing fs).length + 1 ≤ steps + 1)
    (hnodes : n + fieldNodes fs ≤ setting.limits.nodes)
    (hdepth : d + 1 + fieldDepth fs ≤ setting.limits.depth) :
    ∃ s', (readFields setting (steps + 1) before).run s = .ok (vs, s')
      ∧ s'.At (.finished place) ks (n + fieldNodes fs) d := by
  unfold readFields
  rw [peek_bind]
  cases fs with
  | nil =>
    cases hv
    obtain ⟨s1, s2, hadvance, hleave, hs2⟩ := h.close_run htime
    rw [if_pos h.kind]
    exact ⟨s2, run_bind_ok.mpr ⟨(), s1, hadvance, run_bind_ok.mpr ⟨(), s2, hleave, rfl⟩⟩, hs2⟩
  | cons f rest =>
    obtain ⟨k, e⟩ := f
    simp only [fieldValues] at hv
    split at hv
    · rename_i key v hkey hval
      simp only [fieldKinds, List.length_cons, List.length_append] at hsteps
      simp only [fieldNodes] at hnodes ⊢
      simp only [fieldDepth] at hdepth
      simp only [fieldKinds, List.cons_append, List.append_assoc] at h
      obtain ⟨s1, hrun1, hs1⟩ := h.advance_run htime
      obtain ⟨s2, hrun2, hs2⟩ := hs1.advance_run htime
      obtain ⟨s3, hrun3, hs3⟩ := ih.expression hs2 hval (by omega) (by omega) (by omega)
      obtain ⟨s4, hrun4, hs4⟩ := hs3.separate_run .rightBrace
        (by rintro rfl; exact ⟨ks, rfl⟩) (by simp) htime
      obtain ⟨s5, hrun5, hs5⟩ := ih.fields hs4 hv (by omega) (by omega) (by omega)
      -- a key is no closing brace
      have hbrace : s.current.kind ≠ .symbol .rightBrace := by
        rw [h.kind]
        rintro rfl
        cases hkey
      rw [if_neg hbrace, h.kind]
      simp only [hkey]
      refine ⟨s5, ?_, by rwa [← Nat.add_assoc]⟩
      refine run_bind_ok.mpr ⟨(), s1, hrun1, run_bind_ok.mpr ⟨(), s2, ?_, ?_⟩⟩
      · exact run_expect_ok.mpr ⟨hs1.kind, hrun2⟩
      · exact run_bind_ok.mpr ⟨v, s3, hrun3, run_bind_ok.mpr ⟨(), s4, hrun4, hrun5⟩⟩
    · cases hv

/-- An item or argument is read together with the separator behind it. -/
theorem Complete.member [Library] (ih : Complete setting place steps)
    (htime : setting.limits.noTime = false) {e : Expression} {rest : List Expression}
    {trailing : Bool} {closing : Symbol} {v : Option Constraint}
    (h : s.At (.finished place) (itemKinds trailing (e :: rest) ++ .symbol closing :: ks) n d)
    (hclosing : closing = .rightBracket ∨ closing = .rightParen)
    (hv : e.value setting.bindings = some v)
    (hsteps : 2 * (itemKinds trailing (e :: rest)).length + 1 ≤ steps + 1)
    (hnodes : n + itemNodes (e :: rest) ≤ setting.limits.nodes)
    (hdepth : d + itemDepth (e :: rest) ≤ setting.limits.depth) :
    s.current.kind ≠ .symbol closing ∧ ∃ t u, (readExpression setting steps).run s = .ok (v, t)
      ∧ (separate setting closing).run t = .ok ((), u)
      ∧ u.At (.finished place) (itemKinds trailing rest ++ .symbol closing :: ks)
        (n + e.nodes) d := by
  simp only [itemKinds, List.length_append] at hsteps
  simp only [itemNodes] at hnodes
  simp only [itemDepth] at hdepth
  simp only [itemKinds, List.append_assoc] at h
  obtain ⟨t, hread, ht⟩ := ih.expression h hv (by omega) (by omega) (by omega)
  obtain ⟨u, hseparate, hu⟩ := ht.separate_run closing
    (by rintro rfl; exact ⟨ks, rfl⟩) (by rcases hclosing with rfl | rfl <;> simp) htime
  refine ⟨?_, t, u, hread, hseparate, hu⟩
  obtain ⟨k, ls, hkinds, hbracket, hparen⟩ := e.kinds_cons
  rw [hkinds] at h
  rw [h.kind]
  rcases hclosing with rfl | rfl
  · exact hbracket
  · exact hparen

theorem itemKinds_length_lt (e : Expression) (rest : List Expression) (trailing : Bool) :
    (itemKinds trailing rest).length < (itemKinds trailing (e :: rest)).length := by
  have hpos := e.kinds_length_pos
  simp only [itemKinds, List.length_append]
  omega

theorem readItems_step [Library] (ih : Complete setting place steps)
    (htime : setting.limits.noTime = false) {es : List Expression} {trailing : Bool}
    {vs : List (Option Constraint)}
    (h : s.At (.finished place) (itemKinds trailing es ++ .symbol .rightBracket :: ks) n (d + 1))
    (hv : itemValues setting.bindings es = some vs)
    (hsteps : 2 * (itemKinds trailing es).length + 1 ≤ steps + 1)
    (hnodes : n + itemNodes es ≤ setting.limits.nodes)
    (hdepth : d + 1 + itemDepth es ≤ setting.limits.depth) :
    ∃ s', (readItems setting (steps + 1)).run s
        = .ok (vs.map fun v => v.getD (.constant .null), s')
      ∧ s'.At (.finished place) ks (n + itemNodes es) d := by
  unfold readItems
  rw [peek_bind]
  cases es with
  | nil =>
    cases hv
    obtain ⟨s1, s2, hadvance, hleave, hs2⟩ := h.close_run htime
    rw [if_pos h.kind]
    exact ⟨s2, run_bind_ok.mpr ⟨(), s1, hadvance, run_bind_ok.mpr ⟨(), s2, hleave, rfl⟩⟩, hs2⟩
  | cons e rest =>
    simp only [itemValues] at hv
    split at hv
    · rename_i v values hval hvalues
      cases hv
      obtain ⟨hbracket, t, u, hread, hseparate, hu⟩ :=
        ih.member htime h (.inl rfl) hval hsteps hnodes hdepth
      have hlt := itemKinds_length_lt e rest trailing
      simp only [itemNodes] at hnodes ⊢
      simp only [itemDepth] at hdepth
      obtain ⟨s', hrun', hs'⟩ := ih.items hu hvalues (by omega) (by omega) (by omega)
      rw [if_neg hbracket]
      refine ⟨s', ?_, by rwa [← Nat.add_assoc]⟩
      refine run_bind_ok.mpr ⟨v, t, hread, run_bind_ok.mpr ⟨(), u, hseparate, ?_⟩⟩
      exact run_bind_ok.mpr ⟨_, s', hrun', rfl⟩
    · cases hv

theorem readArguments_step [Library] (ih : Complete setting place steps)
    (htime : setting.limits.noTime = false) {es : List Expression} {trailing : Bool}
    {vs : List (Option Constraint)}
    (h : s.At (.finished place) (itemKinds trailing es ++ .symbol .rightParen :: ks) n (d + 1))
    (hv : itemValues setting.bindings es = some vs)
    (hsteps : 2 * (itemKinds trailing es).length + 1 ≤ steps + 1)
    (hnodes : n + itemNodes es ≤ setting.limits.nodes)
    (hdepth : d + 1 + itemDepth es ≤ setting.limits.depth) :
    ∃ s', (readArguments setting (steps + 1)).run s = .ok (vs, s')
      ∧ s'.At (.finished place) ks (n + itemNodes es) d := by
  unfold readArguments
  rw [peek_bind]
  cases es with
  | nil =>
    cases hv
    obtain ⟨s1, s2, hadvance, hleave, hs2⟩ := h.close_run htime
    rw [if_pos h.kind]
    exact ⟨s2, run_bind_ok.mpr ⟨(), s1, hadvance, run_bind_ok.mpr ⟨(), s2, hleave, rfl⟩⟩, hs2⟩
  | cons e rest =>
    simp only [itemValues] at hv
    split at hv
    · rename_i v values hval hvalues
      cases hv
      obtain ⟨hparen, t, u, hread, hseparate, hu⟩ :=
        ih.member htime h (.inr rfl) hval hsteps hnodes hdepth
      have hlt := itemKinds_length_lt e rest trailing
      simp only [itemNodes] at hnodes ⊢
      simp only [itemDepth] at hdepth
      obtain ⟨s', hrun', hs'⟩ := ih.arguments hu hvalues (by omega) (by omega) (by omega)
      rw [if_neg hparen]
      refine ⟨s', ?_, by rwa [← Nat.add_assoc]⟩
      refine run_bind_ok.mpr ⟨v, t, hread, run_bind_ok.mpr ⟨(), u, hseparate, ?_⟩⟩
      exact run_bind_ok.mpr ⟨_, s', hrun', rfl⟩
    · cases hv

theorem complete [Library] (htime : setting.limits.noTime = false) (steps : Nat) :
    Complete setting place steps := by
  induction steps with
  | zero =>
    refine ⟨?_, ?_, ?_, ?_, ?_⟩
    -- without a step nothing is read, but no expression is without tokens
    · intro e s ks n d v h hv hsteps
      have hpos := e.kinds_length_pos
      omega
    all_goals
      intros
      omega
  | succ steps ih =>
    exact ⟨readExpression_step ih htime, readNamed_step ih htime, readFields_step ih htime,
      readItems_step ih htime, readArguments_step ih htime⟩

end HttpContract.Script
