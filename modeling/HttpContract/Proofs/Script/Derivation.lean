import HttpContract.Library.Simple
import HttpContract.Proofs.Script.Run

/-!
# Script — what the grammar derives

A script that exports a value has no flaw, and the grammar derives all of its tokens, the value
being that of its one expression (`run_derives`). There is one way around the grammar: behind
directives, a text may be followed by any one token that is no semicolon. Such a script exports the
text as if the token were not there, and the grammar derives no such script.
-/

namespace HttpContract.Script

open Reader

variable {setting : Setting} {steps : Nat} {s s' : State} {place : Place} {ks ls : List TokenKind}
  {n d : Nat} {bindings : Bindings} {c c' : Constraint} {x : String} {k : TokenKind}

/-! ## Derivations -/

/-- The grammar derives the tokens with the value of the expression in them: directives, perhaps an
assignment, the expression and semicolons. -/
def Derives [Library] (bindings : Bindings) (ks : List TokenKind) (c : Constraint) : Prop :=
  ∃ ds assigned, ∃ e : Expression, ∃ m,
    ks = directiveKinds ds ++ (assignmentKinds assigned ++ e.kinds ++ semicolons m)
      ∧ e.value bindings = some (some c)

/-- Behind directives the tokens are a text, one that is passed over, and semicolons. -/
def PassesOver (ks : List TokenKind) (c : Constraint) : Prop :=
  ∃ ds x k m, ks = directiveKinds ds ++ .string x :: k :: semicolons m ∧ k ≠ .symbol .semicolon
    ∧ c = .constant (.string x)

theorem cons_eq_semicolons {m : Nat} (h : k :: ls = semicolons m) :
    ∀ l ∈ k :: ls, l = .symbol .semicolon := by
  intro l hl
  rw [h] at hl
  exact List.eq_of_mem_replicate hl

/-- What the grammar derives and starts with a text has nothing but semicolons behind it. -/
theorem rest_of_string {assigned : Bool} {e : Expression} {m : Nat}
    (h : .string x :: ls = assignmentKinds assigned ++ e.kinds ++ semicolons m) :
    ls = semicolons m := by
  cases assigned with
  | true => cases h
  | false =>
    rw [assignmentKinds, if_neg Bool.false_ne_true, List.nil_append] at h
    exact (Expression.eq_string_of_kinds h.symm).2.symm

theorem PassesOver.not_derives [Library] (h : PassesOver ks c) : ¬Derives bindings ks c' := by
  obtain ⟨ds, x, k, m, rfl, hk, -⟩ := h
  rintro ⟨ds', assigned, e, m', hks, -⟩
  induction ds generalizing ds' with
  | nil =>
    cases ds' with
    | nil => exact hk (cons_eq_semicolons (rest_of_string hks) k List.mem_cons_self)
    | cons y ds' =>
      injection hks with _ hks
      injection hks with hk'
      exact hk hk'
  | cons y ds ih =>
    cases ds' with
    | nil =>
      have hrest := cons_eq_semicolons (rest_of_string hks) (.string x) (by simp)
      cases hrest
    | cons y' ds' =>
      injection hks with _ hks
      injection hks with _ hks
      exact ih ds' hks

theorem IsScript.derives [Library] {e : Expression} (h : IsScript ks e)
    (hv : e.value bindings = some (some c)) : Derives bindings ks c ∨ PassesOver ks c := by
  obtain ⟨ds, m, ls, rfl, hexported⟩ := h
  cases hexported with
  | plain assigned => exact .inl ⟨ds, assigned, e, m, rfl, hv⟩
  | text x k _ hx hk =>
    subst hx
    cases hv
    exact .inr ⟨ds, x, k, m, rfl, hk, rfl⟩

/-! ## Passing over -/

theorem run_bind_of_ok {α β : Type} {r : Reader α} {f : α → Reader β} {a : α}
    (h : r.run s = .ok (a, s')) : (r >>= f).run s = (f a).run s' := by
  rw [StateT.run_bind, h]
  rfl

/-- Directives are skipped one by one. -/
theorem skipDirectives_run (ds : List String)
    (h : s.At (.finished place) (directiveKinds ds ++ ls) n d)
    (htime : setting.limits.noTime = false) (steps : Nat) :
    ∃ s', (skipDirectives setting (ds.length + steps)).run s = (skipDirectives setting steps).run s'
      ∧ s'.At (.finished place) ls n d := by
  induction ds generalizing s with
  | nil => exact ⟨s, by rw [List.length_nil, Nat.zero_add], h⟩
  | cons x ds ih =>
    have h : s.At _ (.string x :: .symbol .semicolon :: (directiveKinds ds ++ ls)) n d := h
    obtain ⟨s1, hadvance1, h1⟩ := h.advance_run htime
    obtain ⟨s2, hadvance2, h2⟩ := h1.advance_run htime
    obtain ⟨s', hrun, hs'⟩ := ih h2
    refine ⟨s', ?_, hs'⟩
    rw [List.length_cons, Nat.succ_add, ← hrun, skipDirectives, StateT.run_bind, StateT.run_get,
      pure_bind]
    simp only [h.kind]
    rw [run_bind_of_ok hadvance1, peek_bind, if_pos h1.kind, run_bind_of_ok hadvance2]

/-- A text without a semicolon behind it is read again, and the token that was met is gone. -/
theorem skipDirectives_passes (h : s.At (.finished place) (.string x :: k :: ls) n d)
    (hk : k ≠ .symbol .semicolon) (htime : setting.limits.noTime = false) (steps : Nat) :
    ∃ s', (skipDirectives setting (steps + 1)).run s = .ok ((), s')
      ∧ s'.At (.finished place) (.string x :: ls) n d := by
  obtain ⟨s1, hadvance, h1⟩ := h.advance_run htime
  obtain ⟨hkind, hupcoming, hfinish⟩ := h1.shows
  rw [List.mem_cons, not_or] at hfinish
  refine ⟨{ s1 with current := s.current }, ?_, ?_⟩
  · rw [skipDirectives, StateT.run_bind, StateT.run_get, pure_bind]
    simp only [h.kind]
    rw [run_bind_of_ok hadvance, peek_bind, if_neg (hkind ▸ hk)]
    rfl
  · exact ⟨⟨h.kind, hupcoming, by simp [hfinish.2]⟩, nofun, h1.ending, h1.nodes, h1.depth⟩

theorem length_directiveKinds (ds : List String) : (directiveKinds ds).length = 2 * ds.length := by
  induction ds with
  | nil => rfl
  | cons x ds ih =>
    rw [directiveKinds, List.flatMap_cons, List.length_append, ← directiveKinds, ih]
    simp only [List.length_cons, List.length_nil]
    omega

/-- Every script without a flaw that passes over a token exports its text. -/
theorem run_passes [Library] {limits : Limits} {source : String}
    (hsize : source.utf8ByteSize ≤ limits.size) (hnodes : 0 < limits.nodes)
    (htime : limits.noTime = false)
    (hending : (Tokens.ofScript source.toList).ending = .finished place)
    (h : PassesOver (tokensOf source) c) : run limits bindings source = .ok c := by
  obtain ⟨ds, x, k, m, hks, hk, rfl⟩ := h
  obtain ⟨s, hs, h⟩ := State.initial_run (finish_not_mem_ofScript source.toList) hending
  rw [← tokensOf, hks] at h
  have hlength : (Tokens.ofScript source.toList).list.length = 2 * ds.length + (m + 2) := by
    rw [← List.length_map (·.kind), ← tokensOf, hks, List.length_append, length_directiveKinds]
    simp [semicolons]
  apply run_of_readScript hsize hs
  have hsteps : 3 * (Tokens.ofScript source.toList).list.length + 8
      = ds.length + (5 * ds.length + 3 * m + 13 + 1) := by omega
  have htime' : (⟨bindings, limits⟩ : Setting).limits.noTime = false := htime
  obtain ⟨s1, hrun1, h1⟩ :=
    skipDirectives_run ds h htime' (5 * ds.length + 3 * m + 13 + 1)
  obtain ⟨s2, hrun2, h2⟩ := skipDirectives_passes h1 hk htime' (5 * ds.length + 3 * m + 13)
  have hkind : s2.current.kind = .string x := h2.kind
  rw [hsteps]
  exact readScript_run (hrun1.trans hrun2) (by simp [hkind])
    (skipAssignment_none (by simp [hkind])) (e := .string x) h2 rfl
    (by simp [Expression.kinds, semicolons]; omega) (Nat.zero_le _) hnodes htime

/-! ## Scripts -/

/-- What a script exports is the value of its one expression, and the grammar derives all of its
tokens, unless it passes over a token behind a text, as every such script does. -/
theorem run_derives [Library] (limits : Limits) (bindings : Bindings) (source : String) :
    (∀ c, run limits bindings source = .ok c →
      (∃ place, (Tokens.ofScript source.toList).ending = .finished place)
      ∧ (Derives bindings (tokensOf source) c ↔ ¬PassesOver (tokensOf source) c))
    ∧ ∀ c, PassesOver (tokensOf source) c →
      (∀ c', ¬Derives bindings (tokensOf source) c')
      ∧ ∀ place, (Tokens.ofScript source.toList).ending = .finished place →
        source.utf8ByteSize ≤ limits.size → 0 < limits.nodes → limits.noTime = false →
        run limits bindings source = .ok c := by
  refine ⟨fun c h => ?_, fun c h => ⟨fun c' => h.not_derives,
    fun place hending hsize hnodes htime => run_passes hsize hnodes htime hending h⟩⟩
  obtain ⟨e, hv, hscript, -, -, hending⟩ := run_sound h
  refine ⟨hending, fun hderives hpasses => hpasses.not_derives hderives, fun hpasses => ?_⟩
  exact (hscript.derives hv).resolve_right hpasses

section Simple

attribute [local instance] Library.simple

/-- The number behind the text is not seen. -/
theorem run_derives_text : run {} Bindings.standard "'a' 5" = .ok (.constant (.string "a"))
    ∧ ∀ c, ¬Derives Bindings.standard (tokensOf "'a' 5") c := by
  have htokens : tokensOf "'a' 5" = [.string "a", .number (.integer (Json.WordInt.ofInt 5))] := by
    decide +kernel
  have hpasses : PassesOver (tokensOf "'a' 5") (.constant (.string "a")) :=
    ⟨[], "a", _, 0, htokens, by decide, rfl⟩
  obtain ⟨hderives, hrun⟩ := (run_derives {} Bindings.standard "'a' 5").2 _ hpasses
  exact ⟨hrun _ (by rfl) (by decide +kernel) (by decide) rfl, hderives⟩

end Simple

end HttpContract.Script
