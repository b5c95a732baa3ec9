import HttpContract.Proofs.Script.Reader

/-!
# Script — what is read is an expression

Whatever reading gives is the meaning of an expression whose tokens were passed over, and the
expression keeps within the limits. The proof is by induction on the steps, all five reading
functions at once: `Sound` is what is shown of them.
-/

namespace HttpContract.Script

open Reader
open Expression (fieldKinds itemKinds fieldValues itemValues fieldNodes itemNodes fieldDepth
  itemDepth)

variable {setting : Setting} {steps : Nat} {s s' : State} {ending : Ending}
  {ks : List TokenKind} {n d : Nat}

/-- What is read in so many steps is an expression, or fields, items or arguments, with its
meaning, within the limits. -/
structure Sound [Library] (setting : Setting) (steps : Nat) : Prop where
  expression {s s' : State} {ending : Ending} {ks : List TokenKind} {n d : Nat}
    {v : Option Constraint} (h : s.At ending ks n d) (hdepth : d ≤ setting.limits.depth)
    (hrun : (readExpression setting steps).run s = .ok (v, s')) :
    ∃ e : Expression, ∃ ls, ks = e.kinds ++ ls ∧ e.value setting.bindings = some v
      ∧ s'.At ending ls (n + e.nodes) d ∧ n + e.nodes ≤ setting.limits.nodes
      ∧ d + e.depth ≤ setting.limits.depth
  named {s s' : State} {ending : Ending} {ks : List TokenKind} {n d : Nat} {name : String}
    {v : Option Constraint} (h : s.At ending (.identifier name :: ks) (n + 1) d)
    (hnodes : n + 1 ≤ setting.limits.nodes) (hdepth : d ≤ setting.limits.depth)
    (hrun : (readNamed setting name steps).run s = .ok (v, s')) :
    ∃ e : Expression, ∃ ls, .identifier name :: ks = e.kinds ++ ls
      ∧ e.value setting.bindings = some v ∧ s'.At ending ls (n + e.nodes) d
      ∧ n + e.nodes ≤ setting.limits.nodes ∧ d + e.depth ≤ setting.limits.depth
  fields {s s' : State} {ending : Ending} {ks : List TokenKind} {n d : Nat}
    {before vs : List (String × Constraint)} (h : s.At ending ks n (d + 1))
    (hnodes : n ≤ setting.limits.nodes) (hdepth : d + 1 ≤ setting.limits.depth)
    (hrun : (readFields setting steps before).run s = .ok (vs, s')) :
    ∃ fs trailing ls, ks = fieldKinds trailing fs ++ .symbol .rightBrace :: ls
      ∧ fieldValues setting.bindings before fs = some vs ∧ s'.At ending ls (n + fieldNodes fs) d
      ∧ n + fieldNodes fs ≤ setting.limits.nodes ∧ d + 1 + fieldDepth fs ≤ setting.limits.depth
  items {s s' : State} {ending : Ending} {ks : List TokenKind} {n d : Nat} {vs : List Constraint}
    (h : s.At ending ks n (d + 1)) (hnodes : n ≤ setting.limits.nodes)
    (hdepth : d + 1 ≤ setting.limits.depth)
    (hrun : (readItems setting steps).run s = .ok (vs, s')) :
    ∃ es trailing ls values, ks = itemKinds trailing es ++ .symbol .rightBracket :: ls
      ∧ itemValues setting.bindings es = some values
      ∧ vs = values.map (fun v => v.getD (.constant .null)) ∧ s'.At ending ls (n + itemNodes es) d
      ∧ n + itemNodes es ≤ setting.limits.nodes ∧ d + 1 + itemDepth es ≤ setting.limits.depth
  arguments {s s' : State} {ending : Ending} {ks : List TokenKind} {n d : Nat}
    {vs : List (Option Constraint)} (h : s.At ending ks n (d + 1))
    (hnodes : n ≤ setting.limits.nodes) (hdepth : d + 1 ≤ setting.limits.depth)
    (hrun : (readArguments setting steps).run s = .ok (vs, s')) :
    ∃ es trailing ls, ks = itemKinds trailing es ++ .symbol .rightParen :: ls
      ∧ itemValues setting.bindings es = some vs ∧ s'.At ending ls (n + itemNodes es) d
      ∧ n + itemNodes es ≤ setting.limits.nodes ∧ d + 1 + itemDepth es ≤ setting.limits.depth

theorem readSigned_sound (negative : Bool) {v : Option Constraint}
    (h : s.At ending (.symbol (signSymbol negative) :: ks) n d) {t : State}
    (hadvance : (advance setting).run s = .ok ((), t))
    (hrun : (readSigned setting negative).run t = .ok (v, s')) :
    ∃ x ls, ks = .number x :: ls
      ∧ v = some (.constant (.number (if negative then negated x else x)))
      ∧ s'.At ending ls n d := by
  have ht := h.advance_sound hadvance
  rw [readSigned, peek_bind] at hrun
  split at hrun
  · rename_i x hx
    obtain ⟨ls, rfl⟩ := ht.cons_of_kind (by simp [hx])
    obtain ⟨u, s2, hadvance2, hrun⟩ := run_bind_ok.mp hrun
    cases run_pure_ok.mp hrun
    exact ⟨x, ls, by rw [hx], rfl, ht.advance_sound hadvance2⟩
  · simp at hrun

theorem readExpression_sound_step [Library] (ih : Sound setting steps) {v : Option Constraint}
    (h : s.At ending ks n d) (hdepth : d ≤ setting.limits.depth)
    (hrun : (readExpression setting (steps + 1)).run s = .ok (v, s')) :
    ∃ e : Expression, ∃ ls, ks = e.kinds ++ ls ∧ e.value setting.bindings = some v
      ∧ s'.At ending ls (n + e.nodes) d ∧ n + e.nodes ≤ setting.limits.nodes
      ∧ d + e.depth ≤ setting.limits.depth := by
  unfold readExpression at hrun
  obtain ⟨_, s0, hcount, hrun⟩ := run_bind_ok.mp hrun
  obtain ⟨hn, hs0⟩ := run_countNode_ok.mp hcount
  have h0 : s0.At ending ks (n + 1) d := by
    rw [hs0]
    exact h.counted
  rw [h.nodes] at hn
  rw [peek_bind] at hrun
  split at hrun
  case h_1 hk =>
    obtain ⟨ls, rfl⟩ := h0.cons_of_kind (by simp [hk])
    obtain ⟨_, s1, hadvance, hrun⟩ := run_bind_ok.mp hrun
    obtain ⟨_, s2, henter, hrun⟩ := run_bind_ok.mp hrun
    obtain ⟨vs, s3, hread, hrun⟩ := run_bind_ok.mp hrun
    cases run_pure_ok.mp hrun
    obtain ⟨hd, h2⟩ := h0.open_sound hadvance henter
    obtain ⟨fs, trailing, ls, rfl, hvs, hs3, hnodes, hdepth⟩ := ih.fields h2 hn hd hread
    refine ⟨.object fs trailing, ls, ?_, ?_, ?_, ?_, ?_⟩
    · simp [hk, Expression.kinds]
    · simp [Expression.value, hvs]
    · rwa [Expression.nodes, ← Nat.add_assoc]
    · rwa [Expression.nodes, ← Nat.add_assoc]
    · rwa [Expression.depth, ← Nat.add_assoc]
  case h_2 hk =>
    obtain ⟨ls, rfl⟩ := h0.cons_of_kind (by simp [hk])
    obtain ⟨_, s1, hadvance, hrun⟩ := run_bind_ok.mp hrun
    obtain ⟨_, s2, henter, hrun⟩ := run_bind_ok.mp hrun
    obtain ⟨vs, s3, hread, hrun⟩ := run_bind_ok.mp hrun
    cases run_pure_ok.mp hrun
    obtain ⟨hd, h2⟩ := h0.open_sound hadvance henter
    obtain ⟨es, trailing, ls, values, rfl, hvs, rfl, hs3, hnodes, hdepth⟩ := ih.items h2 hn hd hread
    refine ⟨.array es trailing, ls, ?_, ?_, ?_, ?_, ?_⟩
    · simp [hk, Expression.kinds]
    · simp [Expression.value, hvs]
    · rwa [Expression.nodes, ← Nat.add_assoc]
    · rwa [Expression.nodes, ← Nat.add_assoc]
    · rwa [Expression.depth, ← Nat.add_assoc]
  case h_3 x hk =>
    obtain ⟨ls, rfl⟩ := h0.cons_of_kind (by simp [hk])
    obtain ⟨_, s1, hadvance, hrun⟩ := run_bind_ok.mp hrun
    cases run_pure_ok.mp hrun
    exact ⟨.string x, ls, by simp [hk, Expression.kinds], rfl, h0.advance_sound hadvance, hn,
      hdepth⟩
  case h_4 x hk =>
    obtain ⟨ls, rfl⟩ := h0.cons_of_kind (by simp [hk])
    obtain ⟨_, s1, hadvance, hrun⟩ := run_bind_ok.mp hrun
    cases run_pure_ok.mp hrun
    exact ⟨.number x, ls, by simp [hk, Expression.kinds], rfl, h0.advance_sound hadvance, hn,
      hdepth⟩
  case h_5 hk =>
    obtain ⟨ls, rfl⟩ := h0.cons_of_kind (by simp [hk])
    obtain ⟨_, s1, hadvance, hrun⟩ := run_bind_ok.mp hrun
    rw [hk] at h0
    obtain ⟨x, ls, rfl, rfl, hs'⟩ := readSigned_sound true h0 hadvance hrun
    exact ⟨.signed true x, ls, by simp [hk, Expression.kinds, signSymbol], rfl, hs', hn, hdepth⟩
  case h_6 hk =>
    obtain ⟨ls, rfl⟩ := h0.cons_of_kind (by simp [hk])
    obtain ⟨_, s1, hadvance, hrun⟩ := run_bind_ok.mp hrun
    rw [hk] at h0
    obtain ⟨x, ls, rfl, rfl, hs'⟩ := readSigned_sound false h0 hadvance hrun
    exact ⟨.signed false x, ls, by simp [hk, Expression.kinds, signSymbol], rfl, hs', hn, hdepth⟩
  case h_7 name hk =>
    obtain ⟨ls, rfl⟩ := h0.cons_of_kind (by simp [hk])
    rw [hk] at h0 ⊢
    exact ih.named h0 hn hdepth hrun
  case h_8 => simp at hrun

theorem readNamed_sound_step [Library] (ih : Sound setting steps) {name : String}
    {v : Option Constraint} (h : s.At ending (.identifier name :: ks) (n + 1) d)
    (hnodes : n + 1 ≤ setting.limits.nodes) (hdepth : d ≤ setting.limits.depth)
    (hrun : (readNamed setting name (steps + 1)).run s = .ok (v, s')) :
    ∃ e : Expression, ∃ ls, .identifier name :: ks = e.kinds ++ ls
      ∧ e.value setting.bindings = some v ∧ s'.At ending ls (n + e.nodes) d
      ∧ n + e.nodes ≤ setting.limits.nodes ∧ d + e.depth ≤ setting.limits.depth := by
  unfold readNamed at hrun
  by_cases hforbidden : name ∈ forbiddenNames
  · simp only [List.contains_iff_mem, hforbidden, if_true, run_stop, StateT.run_bind] at hrun
    cases hrun
  simp only [List.contains_iff_mem, hforbidden, if_false] at hrun
  obtain ⟨_, s1, hadvance, hrun⟩ := run_bind_ok.mp hrun
  have h1 := h.advance_sound hadvance
  split at hrun
  · rename_i value hword
    cases run_pure_ok.mp hrun
    have hname : isWord name = true := isWord_iff.mpr ⟨hforbidden, v, hword⟩
    exact ⟨.word name, ks, rfl, by simp [Expression.value, hname, hword], h1, hnodes, hdepth⟩
  rename_i hword
  have hname : isCallable name = true := isCallable_iff.mpr ⟨hforbidden, hword⟩
  rw [peek_bind] at hrun
  split at hrun
  · rw [StateT.run_bind, run_stop] at hrun
    cases hrun
  rename_i hparen
  rw [ne_eq, Decidable.not_not] at hparen
  obtain ⟨ls, rfl⟩ := h1.cons_of_kind (by simp [hparen])
  split at hrun
  · simp at hrun
  rename_i b hb
  obtain ⟨_, s2, hadvance2, hrun⟩ := run_bind_ok.mp hrun
  obtain ⟨_, s3, henter, hrun⟩ := run_bind_ok.mp hrun
  obtain ⟨vs, s4, hread, hresult⟩ := run_bind_ok.mp hrun
  obtain ⟨hd, h3⟩ := h1.open_sound hadvance2 henter
  obtain ⟨es, trailing, ls, rfl, hvs, hs4, hn, hd'⟩ := ih.arguments h3 hnodes hd hread
  split at hresult
  · rename_i c hc
    cases run_pure_ok.mp hresult
    refine ⟨.call name es trailing, ls, ?_, ?_, ?_, ?_, ?_⟩
    · simp [hparen, Expression.kinds]
    · simp [Expression.value, hname, hb, hvs, hc, Except.toOption]
    · rwa [Expression.nodes, ← Nat.add_assoc]
    · rwa [Expression.nodes, ← Nat.add_assoc]
    · rwa [Expression.depth, ← Nat.add_assoc]
  · simp at hresult

/-- A comma that was passed over is the separator behind a member, or the trailing comma. -/
theorem comma_fieldKinds (trailing : Bool) (fs : List (TokenKind × Expression)) :
    ∃ trailing', .symbol .comma :: fieldKinds trailing fs
      = separator trailing' fs ++ fieldKinds trailing' fs := by
  cases fs with
  | nil => exact ⟨true, rfl⟩
  | cons f fs => exact ⟨trailing, by simp [separator]⟩

@[inherit_doc comma_fieldKinds]
theorem comma_itemKinds (trailing : Bool) (es : List Expression) :
    ∃ trailing', .symbol .comma :: itemKinds trailing es
      = separator trailing' es ++ itemKinds trailing' es := by
  cases es with
  | nil => exact ⟨true, rfl⟩
  | cons e es => exact ⟨trailing, by simp [separator]⟩

theorem readFields_sound_step [Library] (ih : Sound setting steps)
    {before vs : List (String × Constraint)} (h : s.At ending ks n (d + 1))
    (hnodes : n ≤ setting.limits.nodes) (hdepth : d + 1 ≤ setting.limits.depth)
    (hrun : (readFields setting (steps + 1) before).run s = .ok (vs, s')) :
    ∃ fs trailing ls, ks = fieldKinds trailing fs ++ .symbol .rightBrace :: ls
      ∧ fieldValues setting.bindings before fs = some vs ∧ s'.At ending ls (n + fieldNodes fs) d
      ∧ n + fieldNodes fs ≤ setting.limits.nodes
      ∧ d + 1 + fieldDepth fs ≤ setting.limits.depth := by
  unfold readFields at hrun
  rw [peek_bind] at hrun
  split at hrun
  · rename_i hbrace
    obtain ⟨ls, rfl⟩ := h.cons_of_kind (by simp [hbrace])
    obtain ⟨_, s1, hadvance, hrun⟩ := run_bind_ok.mp hrun
    obtain ⟨_, s2, hleave, hrun⟩ := run_bind_ok.mp hrun
    cases run_pure_ok.mp hrun
    exact ⟨[], false, ls, by rw [hbrace]; rfl, rfl, h.close_sound hadvance hleave, hnodes, hdepth⟩
  split at hrun
  · simp at hrun
  rename_i key hkey
  obtain ⟨ls, rfl⟩ := h.cons_of_kind (by intro hfinish; rw [hfinish] at hkey; cases hkey)
  generalize hk : s.current.kind = k at *
  obtain ⟨_, s1, hadvance, hrun⟩ := run_bind_ok.mp hrun
  obtain ⟨_, s2, hexpect, hrun⟩ := run_bind_ok.mp hrun
  obtain ⟨v, s3, hread, hrun⟩ := run_bind_ok.mp hrun
  obtain ⟨_, s4, hseparate, hmore⟩ := run_bind_ok.mp hrun
  have h1 := h.advance_sound hadvance
  obtain ⟨hcolon, hadvance2⟩ := run_expect_ok.mp hexpect
  obtain ⟨ls, rfl⟩ := h1.cons_of_kind (by simp [hcolon])
  rw [hcolon] at h1 ⊢
  have h2 := h1.advance_sound hadvance2
  obtain ⟨e, ls, rfl, hv, h3, hn3, hd3⟩ := ih.expression h2 hdepth hread
  rcases h3.separate_sound hseparate with ⟨ls, rfl, h4⟩ | ⟨ls, rfl, rfl⟩
  · obtain ⟨fs, trailing, ls, rfl, hvs, hs', hn, hd⟩ := ih.fields h4 hn3 hdepth hmore
    -- the comma that was passed over separates the field from the next one, or trails
    obtain ⟨trailing', hcomma⟩ := comma_fieldKinds trailing fs
    refine ⟨(k, e) :: fs, trailing', ls, ?_, ?_, ?_, ?_, ?_⟩
    · rw [fieldKinds, List.cons_append, List.cons_append, List.append_assoc, List.append_assoc,
        ← List.append_assoc (separator trailing' fs), ← hcomma]
      rfl
    · simp only [fieldValues, hkey, hv, hvs]
    · rwa [fieldNodes, ← Nat.add_assoc]
    · rwa [fieldNodes, ← Nat.add_assoc]
    · rw [fieldDepth]
      omega
  · obtain ⟨fs, trailing, ls', hls, hvs, hs', hn, hd⟩ := ih.fields h3 hn3 hdepth hmore
    -- the closing brace stands next, so no field follows
    have hnil : fs = [] := by
      cases fs with
      | nil => rfl
      | cons f fs =>
        rw [fieldKinds, List.cons_append] at hls
        obtain ⟨hf, -⟩ := List.cons.inj hls
        rw [fieldValues, ← hf] at hvs
        cases hvs
    subst hnil
    obtain rfl := (List.cons.inj hls).2
    refine ⟨[(k, e)], false, ls, ?_, ?_, ?_, ?_, ?_⟩
    · simp [fieldKinds, separator]
    · simp only [fieldValues, hkey, hv]
      exact hvs
    · simpa [fieldNodes] using hs'
    · simpa [fieldNodes] using hn
    · simpa [fieldDepth] using hd3

/-- What is read as a member and its separator, behind which the other members were read. -/
theorem Sound.member [Library] (ih : Sound setting steps) {closing : Symbol} {v : Option Constraint}
    {t u : State} (h : s.At ending ks n d) (hdepth : d ≤ setting.limits.depth)
    (hread : (readExpression setting steps).run s = .ok (v, t))
    (hseparate : (separate setting closing).run t = .ok ((), u)) :
    ∃ e : Expression, e.value setting.bindings = some v ∧ n + e.nodes ≤ setting.limits.nodes
      ∧ d + e.depth ≤ setting.limits.depth
      ∧ ∃ ls, u.At ending ls (n + e.nodes) d
        ∧ (ks = e.kinds ++ .symbol .comma :: ls
          ∨ ks = e.kinds ++ ls ∧ ∃ ms, ls = .symbol closing :: ms) := by
  obtain ⟨e, ls, rfl, hv, ht, hnodes, hdepth⟩ := ih.expression h hdepth hread
  refine ⟨e, hv, hnodes, hdepth, ?_⟩
  rcases ht.separate_sound hseparate with ⟨ms, rfl, hu⟩ | ⟨ms, rfl, rfl⟩
  · exact ⟨ms, hu, .inl rfl⟩
  · exact ⟨_, ht, .inr ⟨rfl, ms, rfl⟩⟩

/-- A member and the members behind it are members. -/
theorem itemKinds_joined {e : Expression} {es : List Expression} {trailing : Bool}
    {closing : Symbol} {ls ms : List TokenKind}
    (hclosing : closing = .rightBracket ∨ closing = .rightParen)
    (hls : ls = itemKinds trailing es ++ .symbol closing :: ms)
    (h : ks = e.kinds ++ .symbol .comma :: ls
      ∨ ks = e.kinds ++ ls ∧ ∃ ms, ls = .symbol closing :: ms) :
    ∃ trailing', ks = itemKinds trailing' (e :: es) ++ .symbol closing :: ms := by
  rcases h with rfl | ⟨rfl, ns, hns⟩
  · obtain ⟨trailing', hcomma⟩ := comma_itemKinds trailing es
    refine ⟨trailing', ?_⟩
    rw [itemKinds, hls, List.append_assoc, List.append_assoc,
      ← List.append_assoc (separator trailing' es), ← hcomma]
    rfl
  · -- the closing symbol stands next, so no member follows
    have hnil : es = [] := by
      cases es with
      | nil => rfl
      | cons f fs =>
        obtain ⟨k, ls', hkinds, hbracket, hparen⟩ := f.kinds_cons
        rw [hns, itemKinds, hkinds] at hls
        obtain ⟨hk, -⟩ := List.cons.inj hls
        rcases hclosing with rfl | rfl
        · exact absurd hk.symm hbracket
        · exact absurd hk.symm hparen
    subst hnil
    exact ⟨false, by simp [hls, itemKinds, separator]⟩

theorem readItems_sound_step [Library] (ih : Sound setting steps) {vs : List Constraint}
    (h : s.At ending ks n (d + 1)) (hnodes : n ≤ setting.limits.nodes)
    (hdepth : d + 1 ≤ setting.limits.depth)
    (hrun : (readItems setting (steps + 1)).run s = .ok (vs, s')) :
    ∃ es trailing ls values, ks = itemKinds trailing es ++ .symbol .rightBracket :: ls
      ∧ itemValues setting.bindings es = some values
      ∧ vs = values.map (fun v => v.getD (.constant .null)) ∧ s'.At ending ls (n + itemNodes es) d
      ∧ n + itemNodes es ≤ setting.limits.nodes
      ∧ d + 1 + itemDepth es ≤ setting.limits.depth := by
  unfold readItems at hrun
  rw [peek_bind] at hrun
  split at hrun
  · rename_i hbracket
    obtain ⟨ls, rfl⟩ := h.cons_of_kind (by simp [hbracket])
    obtain ⟨_, s1, hadvance, hrun⟩ := run_bind_ok.mp hrun
    obtain ⟨_, s2, hleave, hrun⟩ := run_bind_ok.mp hrun
    cases run_pure_ok.mp hrun
    exact ⟨[], false, ls, [], by rw [hbracket]; rfl, rfl, rfl, h.close_sound hadvance hleave,
      hnodes, hdepth⟩
  · obtain ⟨v, t, hread, hrun⟩ := run_bind_ok.mp hrun
    obtain ⟨_, u, hseparate, hrun⟩ := run_bind_ok.mp hrun
    obtain ⟨more, s3, hmore, hrun⟩ := run_bind_ok.mp hrun
    cases run_pure_ok.mp hrun
    obtain ⟨e, hv, hn, hd, ls, hu, hks⟩ := ih.member h hdepth hread hseparate
    obtain ⟨es, trailing, ms, values, hls, hvs, rfl, hs', hn', hd'⟩ := ih.items hu hn hdepth hmore
    obtain ⟨trailing', hks⟩ := itemKinds_joined (.inl rfl) hls hks
    refine ⟨e :: es, trailing', ms, v :: values, hks, ?_, rfl, ?_, ?_, ?_⟩
    · simp only [itemValues, hv, hvs]
    · rwa [itemNodes, ← Nat.add_assoc]
    · rwa [itemNodes, ← Nat.add_assoc]
    · rw [itemDepth]
      omega

theorem readArguments_sound_step [Library] (ih : Sound setting steps)
    {vs : List (Option Constraint)} (h : s.At ending ks n (d + 1))
    (hnodes : n ≤ setting.limits.nodes) (hdepth : d + 1 ≤ setting.limits.depth)
    (hrun : (readArguments setting (steps + 1)).run s = .ok (vs, s')) :
    ∃ es trailing ls, ks = itemKinds trailing es ++ .symbol .rightParen :: ls
      ∧ itemValues setting.bindings es = some vs ∧ s'.At ending ls (n + itemNodes es) d
      ∧ n + itemNodes es ≤ setting.limits.nodes
      ∧ d + 1 + itemDepth es ≤ setting.limits.depth := by
  unfold readArguments at hrun
  rw [peek_bind] at hrun
  split at hrun
  · rename_i hparen
    obtain ⟨ls, rfl⟩ := h.cons_of_kind (by simp [hparen])
    obtain ⟨_, s1, hadvance, hrun⟩ := run_bind_ok.mp hrun
    obtain ⟨_, s2, hleave, hrun⟩ := run_bind_ok.mp hrun
    cases run_pure_ok.mp hrun
    exact ⟨[], false, ls, by rw [hparen]; rfl, rfl, h.close_sound hadvance hleave, hnodes, hdepth⟩
  · obtain ⟨v, t, hread, hrun⟩ := run_bind_ok.mp hrun
    obtain ⟨_, u, hseparate, hrun⟩ := run_bind_ok.mp hrun
    obtain ⟨more, s3, hmore, hrun⟩ := run_bind_ok.mp hrun
    cases run_pure_ok.mp hrun
    obtain ⟨e, hv, hn, hd, ls, hu, hks⟩ := ih.member h hdepth hread hseparate
    obtain ⟨es, trailing, ms, hls, hvs, hs', hn', hd'⟩ := ih.arguments hu hn hdepth hmore
    obtain ⟨trailing', hks⟩ := itemKinds_joined (.inr rfl) hls hks
    refine ⟨e :: es, trailing', ms, hks, ?_, ?_, ?_, ?_⟩
    · simp only [itemValues, hv, hvs]
    · rwa [itemNodes, ← Nat.add_assoc]
    · rwa [itemNodes, ← Nat.add_assoc]
    · rw [itemDepth]
      omega

theorem sound [Library] (setting : Setting) (steps : Nat) : Sound setting steps := by
  induction steps with
  | zero =>
    refine ⟨?_, ?_, ?_, ?_, ?_⟩
    · intro s s' ending ks n d v _ _ hrun
      simp [readExpression] at hrun
    · intro s s' ending ks n d name v _ _ _ hrun
      simp [readNamed] at hrun
    · intro s s' ending ks n d before vs _ _ _ hrun
      simp [readFields] at hrun
    · intro s s' ending ks n d vs _ _ _ hrun
      simp [readItems] at hrun
    · intro s s' ending ks n d vs _ _ _ hrun
      simp [readArguments] at hrun
  | succ steps ih =>
    exact ⟨readExpression_sound_step ih, readNamed_sound_step ih, readFields_sound_step ih,
      readItems_sound_step ih, readArguments_sound_step ih⟩

end HttpContract.Script
