import HttpContract.Proofs.Script.Complete
import HttpContract.Proofs.Script.Scan
import HttpContract.Proofs.Script.Sound

/-!
# Script — whole scripts

A script is read as its one expression: where a text scans to the tokens of an expression with a
meaning, alone or assigned to `module.exports`, running it gives that meaning (`run_text`,
`run_assigned`), and a result of running is the meaning of an expression of the script
(`run_sound`). A text that stands first without a semicolon behind it is the expression; the token
that is met behind it is passed over.
-/

namespace HttpContract.Script

open Reader

variable {setting : Setting} {steps : Nat} {s s' : State} {ending : Ending} {place : Place}
  {ks : List TokenKind} {n d : Nat}

/-! ## Parts of scripts -/

/-- The tokens of a script, without their places. -/
def tokensOf (source : String) : List TokenKind :=
  (Tokens.ofScript source.toList).list.map (·.kind)

/-- Whether a call of a function stands among tokens. -/
def CallsIn (ks : List TokenKind) (name : String) : Prop :=
  [.identifier name, .symbol .leftParen] <:+: ks

/-- Whether a script calls a function. -/
def Calls (source name : String) : Prop := CallsIn (tokensOf source) name

instance (source name : String) : Decidable (Calls source name) :=
  inferInstanceAs (Decidable (_ <:+: _))

/-- The tokens of directives. -/
def directiveKinds (ds : List String) : List TokenKind :=
  ds.flatMap fun x => [.string x, .symbol .semicolon]

/-- The tokens of the assignment to `module.exports`, if there is one. -/
def assignmentKinds (assigned : Bool) : List TokenKind :=
  if assigned then
    [.identifier "module", .symbol .dot, .identifier "exports", .symbol .equals]
  else []

/-- The tokens of semicolons. -/
def semicolons (m : Nat) : List TokenKind := List.replicate m (.symbol .semicolon)

/-- What stands behind directives: the expression with its assignment, or a text behind which a
token was passed over. -/
inductive Exported (e : Expression) : List TokenKind → List TokenKind → Prop where
  | plain (assigned : Bool) (ls : List TokenKind) :
    Exported e (assignmentKinds assigned ++ e.kinds ++ ls) ls
  | text (x : String) (k : TokenKind) (ls : List TokenKind) (hx : e = .string x)
    (hk : k ≠ .symbol .semicolon) : Exported e (.string x :: k :: ls) ls

/-- The tokens of a script with an expression. -/
def IsScript (ks : List TokenKind) (e : Expression) : Prop :=
  ∃ ds m ls, ks = directiveKinds ds ++ ls ∧ Exported e ls (semicolons m)

/-- The tokens of the expression stand together in the script. -/
theorem IsScript.kinds_within {e : Expression} (h : IsScript ks e) : e.kinds <:+: ks := by
  obtain ⟨ds, m, ls, rfl, hexported⟩ := h
  cases hexported with
  | plain assigned =>
    exact ⟨directiveKinds ds ++ assignmentKinds assigned, semicolons m, by simp⟩
  | text x k _ hx =>
    subst hx
    exact ⟨directiveKinds ds, k :: semicolons m, by simp [Expression.kinds]⟩

/-! ## Reading the parts -/

theorem skipDirectives_other (h : s.At ending ks n d) (hks : ∀ x ls, ks ≠ .string x :: ls) :
    (skipDirectives setting (steps + 1)).run s = .ok ((), s) := by
  have hkind : ∀ x, s.current.kind ≠ .string x := by
    intro x hx
    obtain ⟨ls, hls⟩ := h.cons_of_kind (by simp [hx])
    exact hks x ls (by rw [hls, hx])
  unfold skipDirectives
  rw [StateT.run_bind, StateT.run_get, pure_bind]
  dsimp only
  split
  · rename_i x hx
    exact absurd hx (hkind x)
  · rfl

theorem skipDirectives_text (setting : Setting) (steps : Nat) {x : String}
    (h : s.At (.finished place) [.string x] n d) (htime : setting.limits.noTime = false) :
    ∃ s', (skipDirectives setting (steps + 1)).run s = .ok ((), s')
      ∧ s'.At (.finished place) [.string x] n d := by
  obtain ⟨s1, hadvance, h1⟩ := h.advance_run htime
  have hfinish : s1.current.kind = .finish := h1.shows.1
  refine ⟨{ s1 with current := s.current }, ?_, ?_⟩
  · unfold skipDirectives
    rw [StateT.run_bind, StateT.run_get, pure_bind]
    simp only [h.kind]
    refine run_bind_ok.mpr ⟨(), s1, hadvance, ?_⟩
    rw [peek_bind, if_neg (by rw [hfinish]; simp)]
    rfl
  · exact ⟨⟨h.kind, by simp [h1.shows.2], by simp⟩, nofun, h1.ending, h1.nodes, h1.depth⟩

theorem skipDirectives_sound {u : Unit} (h : s.At ending ks n d)
    (hrun : (skipDirectives setting steps).run s = .ok (u, s')) :
    ∃ ds ls ms, ks = directiveKinds ds ++ ls ∧ s'.At ending ms n d
      ∧ (ls = ms ∨ ∃ x k ns, k ≠ .symbol .semicolon ∧ ls = .string x :: k :: ns
        ∧ ms = .string x :: ns) := by
  induction steps generalizing s ks with
  | zero =>
    cases run_pure_ok.mp hrun
    exact ⟨[], ks, ks, rfl, h, .inl rfl⟩
  | succ steps ih =>
    unfold skipDirectives at hrun
    rw [StateT.run_bind, StateT.run_get, pure_bind] at hrun
    dsimp only at hrun
    split at hrun
    · rename_i x hx
      obtain ⟨ls, rfl⟩ := h.cons_of_kind (by simp [hx])
      rw [hx] at h ⊢
      obtain ⟨_, s1, hadvance, hrun⟩ := run_bind_ok.mp hrun
      have h1 := h.advance_sound hadvance
      rw [peek_bind] at hrun
      split at hrun
      · rename_i hsemicolon
        obtain ⟨ls, rfl⟩ := h1.cons_of_kind (by simp [hsemicolon])
        rw [hsemicolon] at h1 ⊢
        obtain ⟨_, s2, hadvance2, hrun⟩ := run_bind_ok.mp hrun
        obtain ⟨ds, ls, ms, rfl, hs', hms⟩ := ih (h1.advance_sound hadvance2) hrun
        exact ⟨x :: ds, ls, ms, by simp [directiveKinds], hs', hms⟩
      · rename_i hsemicolon
        have hs' : s' = { s1 with current := s.current } :=
          congrArg Prod.snd (Except.ok.inj hrun.symm)
        cases ls with
        | nil =>
          refine ⟨[], _, [.string x], rfl, ?_, .inl rfl⟩
          rw [hs']
          exact ⟨⟨h.kind, by simp [h1.shows.2], by simp⟩, nofun, h1.ending, h1.nodes, h1.depth⟩
        | cons k ls =>
          obtain ⟨hk, hls, hfinish⟩ := h1.shows
          refine ⟨[], _, .string x :: ls, rfl, ?_, .inr ⟨x, k, ls, ?_, rfl, rfl⟩⟩
          · rw [hs']
            simp only [List.mem_cons, not_or] at hfinish
            exact ⟨⟨h.kind, hls, by simp [hfinish.2]⟩, nofun, h1.ending, h1.nodes, h1.depth⟩
          · rwa [← hk]
    · cases run_pure_ok.mp hrun
      exact ⟨[], ks, ks, rfl, h, .inl rfl⟩

theorem skipAssignment_none (h : s.current.kind ≠ .identifier "module") :
    (skipAssignment setting).run s = .ok ((), s) := by
  rw [skipAssignment, peek_bind, if_neg h]
  rfl

theorem skipAssignment_run (setting : Setting)
    (h : s.At (.finished place) (assignmentKinds true ++ ks) n d)
    (htime : setting.limits.noTime = false) :
    ∃ s', (skipAssignment setting).run s = .ok ((), s') ∧ s'.At (.finished place) ks n d := by
  obtain ⟨s1, hrun1, h1⟩ := h.advance_run htime
  obtain ⟨s2, hrun2, h2⟩ := h1.advance_run htime
  obtain ⟨s3, hrun3, h3⟩ := h2.advance_run htime
  obtain ⟨s4, hrun4, h4⟩ := h3.advance_run htime
  refine ⟨s4, ?_, h4⟩
  rw [skipAssignment, peek_bind, if_pos h.kind]
  refine run_bind_ok.mpr ⟨(), s1, hrun1, ?_⟩
  refine run_bind_ok.mpr ⟨(), s2, run_expect_ok.mpr ⟨h1.kind, hrun2⟩, ?_⟩
  rw [peek_bind, if_pos h2.kind]
  exact run_bind_ok.mpr ⟨(), s3, hrun3, run_expect_ok.mpr ⟨h3.kind, hrun4⟩⟩

theorem skipAssignment_sound {u : Unit} (h : s.At ending ks n d)
    (hrun : (skipAssignment setting).run s = .ok (u, s')) :
    ∃ assigned ls, ks = assignmentKinds assigned ++ ls ∧ s'.At ending ls n d := by
  rw [skipAssignment, peek_bind] at hrun
  split at hrun
  · rename_i hmodule
    obtain ⟨ls, rfl⟩ := h.cons_of_kind (by simp [hmodule])
    obtain ⟨_, s1, hadvance, hrun⟩ := run_bind_ok.mp hrun
    have h1 := h.advance_sound hadvance
    obtain ⟨_, s2, hexpect, hrun⟩ := run_bind_ok.mp hrun
    obtain ⟨hdot, hadvance2⟩ := run_expect_ok.mp hexpect
    obtain ⟨ls, rfl⟩ := h1.cons_of_kind (by simp [hdot])
    have h2 := h1.advance_sound hadvance2
    rw [peek_bind] at hrun
    split at hrun
    · rename_i hexports
      obtain ⟨ls, rfl⟩ := h2.cons_of_kind (by simp [hexports])
      obtain ⟨_, s3, hadvance3, hrun⟩ := run_bind_ok.mp hrun
      have h3 := h2.advance_sound hadvance3
      obtain ⟨hequals, hadvance4⟩ := run_expect_ok.mp hrun
      obtain ⟨ls, rfl⟩ := h3.cons_of_kind (by simp [hequals])
      refine ⟨true, ls, ?_, h3.advance_sound hadvance4⟩
      simp [assignmentKinds, hmodule, hdot, hexports, hequals]
    · obtain ⟨_, s3, hflawed, -⟩ := run_bind_ok.mp hrun
      cases hflawed
  · cases run_pure_ok.mp hrun
    exact ⟨false, ks, rfl, h⟩

theorem skipSemicolons_run (steps : Nat) {m : Nat} (h : s.At (.finished place) (semicolons m) n d)
    (hsteps : m < steps) (htime : setting.limits.noTime = false) :
    ∃ s', (skipSemicolons setting steps).run s = .ok ((), s')
      ∧ s'.At (.finished place) [] n d := by
  induction steps generalizing s m with
  | zero => omega
  | succ steps ih =>
    unfold skipSemicolons
    rw [peek_bind]
    cases m with
    | zero =>
      have hfinish : s.current.kind = .finish := h.shows.1
      rw [if_neg (by rw [hfinish]; simp)]
      exact ⟨s, rfl, h⟩
    | succ m =>
      have hfirst : s.At (.finished place) (.symbol .semicolon :: semicolons m) n d := h
      obtain ⟨s1, hrun1, h1⟩ := hfirst.advance_run htime
      obtain ⟨s2, hrun2, h2⟩ := ih h1 (by omega)
      rw [if_pos hfirst.kind]
      exact ⟨s2, run_bind_ok.mpr ⟨(), s1, hrun1, hrun2⟩, h2⟩

theorem skipSemicolons_sound {u : Unit} (h : s.At ending ks n d)
    (hrun : (skipSemicolons setting steps).run s = .ok (u, s')) :
    ∃ m ls, ks = semicolons m ++ ls ∧ s'.At ending ls n d := by
  induction steps generalizing s ks with
  | zero =>
    cases run_pure_ok.mp hrun
    exact ⟨0, ks, rfl, h⟩
  | succ steps ih =>
    unfold skipSemicolons at hrun
    rw [peek_bind] at hrun
    split at hrun
    · rename_i hsemicolon
      obtain ⟨ls, rfl⟩ := h.cons_of_kind (by simp [hsemicolon])
      obtain ⟨_, s1, hadvance, hrun⟩ := run_bind_ok.mp hrun
      obtain ⟨m, ls, rfl, hs'⟩ := ih (h.advance_sound hadvance) hrun
      exact ⟨m + 1, ls, by simp [hsemicolon, semicolons, List.replicate_succ], hs'⟩
    · cases run_pure_ok.mp hrun
      exact ⟨0, ks, rfl, h⟩

/-! ## Reading a script -/

/-- Limits that let a text with an expression be read. -/
structure Limits.Allow (limits : Limits) (source : String) (e : Expression) : Prop where
  size : source.utf8ByteSize ≤ limits.size
  depth : e.depth ≤ limits.depth
  nodes : e.nodes ≤ limits.nodes
  time : limits.noTime = false

instance (limits : Limits) (source : String) (e : Expression) :
    Decidable (limits.Allow source e) :=
  decidable_of_iff (source.utf8ByteSize ≤ limits.size ∧ e.depth ≤ limits.depth
      ∧ e.nodes ≤ limits.nodes ∧ limits.noTime = false)
    ⟨fun ⟨hsize, hdepth, hnodes, htime⟩ => ⟨hsize, hdepth, hnodes, htime⟩,
      fun ⟨hsize, hdepth, hnodes, htime⟩ => ⟨hsize, hdepth, hnodes, htime⟩⟩

theorem readScript_run [Library] {e : Expression} {c : Constraint} {m : Nat} {s1 s2 : State}
    (hdirectives : (skipDirectives setting steps).run s = .ok ((), s1))
    (hfirst : s1.current.kind ≠ .finish)
    (hassignment : (skipAssignment setting).run s1 = .ok ((), s2))
    (h2 : s2.At (.finished place) (e.kinds ++ semicolons m) 0 0)
    (hv : e.value setting.bindings = some (some c))
    (hsteps : 2 * (e.kinds ++ semicolons m).length < steps)
    (hdepth : e.depth ≤ setting.limits.depth) (hnodes : e.nodes ≤ setting.limits.nodes)
    (htime : setting.limits.noTime = false) :
    ∃ s', (readScript setting steps).run s = .ok (c, s') := by
  simp only [List.length_append, semicolons, List.length_replicate] at hsteps
  obtain ⟨s3, hread, h3⟩ := (complete htime steps).expression h2 hv (by omega) (by omega) (by omega)
  obtain ⟨s4, hsemicolons, h4⟩ :=
    skipSemicolons_run steps h3 (by omega) htime
  refine ⟨s4, ?_⟩
  unfold readScript
  refine run_bind_ok.mpr ⟨(), s1, hdirectives, ?_⟩
  rw [peek_bind, if_neg hfirst]
  refine run_bind_ok.mpr ⟨(), s2, hassignment, run_bind_ok.mpr ⟨_, s3, hread, ?_⟩⟩
  refine run_bind_ok.mpr ⟨(), s4, hsemicolons, ?_⟩
  rw [peek_bind, if_neg (by rw [ne_eq, Decidable.not_not]; exact h4.shows.1)]
  rfl

theorem readScript_sound [Library] {c : Constraint} (h : s.At ending ks 0 0)
    (hrun : (readScript setting steps).run s = .ok (c, s')) :
    ∃ e : Expression, e.value setting.bindings = some (some c) ∧ IsScript ks e
      ∧ e.nodes ≤ setting.limits.nodes ∧ e.depth ≤ setting.limits.depth
      ∧ ∃ place, ending = .finished place := by
  unfold readScript at hrun
  obtain ⟨_, s1, hdirectives, hrun⟩ := run_bind_ok.mp hrun
  rw [peek_bind] at hrun
  split at hrun
  · rw [StateT.run_bind, run_stop] at hrun
    cases hrun
  obtain ⟨_, s2, hassignment, hrun⟩ := run_bind_ok.mp hrun
  obtain ⟨v, s3, hread, hrun⟩ := run_bind_ok.mp hrun
  obtain ⟨_, s4, hsemicolons, hrun⟩ := run_bind_ok.mp hrun
  rw [peek_bind] at hrun
  by_cases hfinish : s4.current.kind = .finish
  case neg =>
    rw [if_pos hfinish, StateT.run_bind, run_unexpected] at hrun
    cases hrun
  rw [if_neg (by rw [ne_eq, Decidable.not_not]; exact hfinish)] at hrun
  obtain ⟨ds, ls, ms, rfl, h1, hms⟩ := skipDirectives_sound h hdirectives
  obtain ⟨assigned, ns, rfl, h2⟩ := skipAssignment_sound h1 hassignment
  obtain ⟨e, os, rfl, hv, h3, hnodes, hdepth⟩ :=
    (sound setting steps).expression h2 (Nat.zero_le _) hread
  obtain ⟨m, qs, rfl, h4⟩ := skipSemicolons_sound h3 hsemicolons
  obtain rfl := h4.eq_nil hfinish
  rw [List.append_nil, ← List.append_assoc] at hms
  rw [Nat.zero_add] at hnodes hdepth
  cases v with
  | none => cases hrun
  | some v =>
    cases run_pure_ok.mp hrun
    refine ⟨e, hv, ⟨ds, m, ls, rfl, ?_⟩, hnodes, hdepth, h4.finished rfl⟩
    rcases hms with rfl | ⟨x, k, ts, hk, rfl, hts⟩
    · exact .plain assigned _
    · -- the text stands for itself, so it is the whole expression
      cases assigned with
      | true => cases hts
      | false =>
        have hkinds : e.kinds ++ semicolons m = .string x :: ts := hts
        obtain ⟨he, rfl⟩ := Expression.eq_string_of_kinds hkinds
        exact .text x k _ he hk

/-! ## Running -/

theorem State.initial_at {tokens : Tokens} (hfinish : .finish ∉ tokens.list.map (·.kind))
    (h : State.initial tokens = .ok s) : s.At tokens.ending (tokens.list.map (·.kind)) 0 0 := by
  obtain ⟨list, ending⟩ := tokens
  cases list with
  | cons t rest =>
    cases h
    exact ⟨⟨rfl, rfl, hfinish⟩, nofun, rfl, rfl, rfl⟩
  | nil =>
    cases ending with
    | finished place =>
      cases h
      exact ⟨⟨rfl, rfl⟩, fun _ => ⟨place, rfl⟩, rfl, rfl, rfl⟩
    | flawed place flaw => cases h

theorem State.initial_run {tokens : Tokens} (hfinish : .finish ∉ tokens.list.map (·.kind))
    (hending : tokens.ending = .finished place) :
    ∃ s, State.initial tokens = .ok s
      ∧ s.At (.finished place) (tokens.list.map (·.kind)) 0 0 := by
  have h : ∃ s, State.initial tokens = .ok s := by
    unfold State.initial
    rw [hending]
    split
    · exact ⟨_, rfl⟩
    · exact ⟨_, rfl⟩
    · contradiction
  obtain ⟨s, h⟩ := h
  exact ⟨s, h, hending ▸ State.initial_at hfinish h⟩

variable {limits : Limits} {bindings : Bindings} {source : String} {e : Expression}
  {c : Constraint}

theorem run_of_readScript [Library] (hsize : source.utf8ByteSize ≤ limits.size)
    (hs : State.initial (Tokens.ofScript source.toList) = .ok s)
    (hrun : ∃ s', (readScript ⟨bindings, limits⟩
      (3 * (Tokens.ofScript source.toList).list.length + 8)).run s = .ok (c, s')) :
    run limits bindings source = .ok c := by
  obtain ⟨s', hrun⟩ := hrun
  unfold run
  rw [if_neg (Nat.not_lt.mpr hsize)]
  simp only [hs, hrun]

/-- An expression with a meaning does not start like an assignment, unless a function is called
so. -/
theorem head_ne_module [Library] {v : Option Constraint} (hv : e.value bindings = some v)
    (hmodule : bindings.lookup "module" = none) :
    e.kinds.head? ≠ some (.identifier "module") := by
  intro hhead
  cases e with
  | word name =>
    simp only [Expression.kinds, List.head?_cons, Option.some.injEq, TokenKind.identifier.injEq]
      at hhead
    subst hhead
    cases hv
  | call name es trailing =>
    simp only [Expression.kinds, List.head?_cons, Option.some.injEq, TokenKind.identifier.injEq]
      at hhead
    subst hhead
    obtain ⟨-, b, -, -, hb, -⟩ := Expression.value_call hv
    rw [hmodule] at hb
    cases hb
  | _ => simp [Expression.kinds] at hhead

/-- A text that scans to the tokens of an expression has its meaning, if it does not start like an
assignment. -/
theorem run_text [Library] {rest : List Char} (hscan : Scans source.toList e.kinds rest)
    (hend : Ends rest) (hv : e.value bindings = some (some c)) (hallow : limits.Allow source e)
    (hhead : e.kinds.head? ≠ some (.identifier "module")) :
    run limits bindings source = .ok c := by
  obtain ⟨hkinds, place, hending⟩ := hscan.ofScript hend
  obtain ⟨s, hs, h⟩ := State.initial_run (hkinds ▸ hscan.finish_not_mem) hending
  have hlength : (Tokens.ofScript source.toList).list.length = e.kinds.length := by
    rw [← hkinds, List.length_map]
  rw [hkinds] at h
  apply run_of_readScript hallow.size hs
  rw [hlength]
  have hassignment : ∀ t : State, t.At (.finished place) e.kinds 0 0 →
      (skipAssignment ⟨bindings, limits⟩).run t = .ok ((), t) ∧ t.current.kind ≠ .finish := by
    intro t ht
    obtain ⟨k, ls, hk, -⟩ := e.kinds_cons
    rw [hk] at ht hhead
    refine ⟨skipAssignment_none ?_, ?_⟩
    · rw [ht.kind]
      simpa using hhead
    · rw [ht.kind]
      rintro rfl
      exact ht.shows.2.2 (by simp)
  have hkinds' : ∀ t : State, t.At (.finished place) e.kinds 0 0 →
      t.At (.finished place) (e.kinds ++ semicolons 0) 0 0 := by
    intro t ht
    rwa [semicolons, List.replicate_zero, List.append_nil]
  -- a text that stands first is looked at as a directive before it is the expression
  by_cases htext : ∃ x, e = .string x
  · obtain ⟨x, rfl⟩ := htext
    obtain ⟨t, hdirectives, ht⟩ :=
      skipDirectives_text ⟨bindings, limits⟩ (3 * 1 + 7) h hallow.time
    obtain ⟨hskip, hfinish⟩ := hassignment t ht
    exact readScript_run hdirectives hfinish hskip (hkinds' t ht) hv
      (by simp [semicolons, Expression.kinds]) hallow.depth hallow.nodes hallow.time
  · obtain ⟨hskip, hfinish⟩ := hassignment s h
    refine readScript_run (skipDirectives_other h ?_) hfinish hskip (hkinds' s h) hv
      (by simp [semicolons]; omega) hallow.depth hallow.nodes hallow.time
    intro x ls hls
    rw [← List.append_nil e.kinds] at hls
    exact htext ⟨x, (Expression.eq_string_of_kinds hls).1⟩

/-- A text that scans to an assignment to `module.exports` has the meaning of what is assigned. -/
theorem run_assigned [Library] {rest : List Char} {m : Nat}
    (hscan : Scans source.toList (assignmentKinds true ++ (e.kinds ++ semicolons m)) rest)
    (hend : Ends rest) (hv : e.value bindings = some (some c)) (hallow : limits.Allow source e) :
    run limits bindings source = .ok c := by
  obtain ⟨hkinds, place, hending⟩ := hscan.ofScript hend
  obtain ⟨s, hs, h⟩ := State.initial_run (hkinds ▸ hscan.finish_not_mem) hending
  have hlength : (Tokens.ofScript source.toList).list.length
      = 4 + (e.kinds ++ semicolons m).length := by
    rw [← List.length_map (·.kind), hkinds, List.length_append]
    rfl
  rw [hkinds] at h
  apply run_of_readScript hallow.size hs
  rw [hlength]
  have hother : ∀ x ls, assignmentKinds true ++ (e.kinds ++ semicolons m) ≠ .string x :: ls := by
    intro x ls hls
    cases hls
  obtain ⟨s2, hassignment, h2⟩ :=
    skipAssignment_run ⟨bindings, limits⟩ h hallow.time
  have hfinish : s.current.kind ≠ .finish := by
    rw [State.At.kind h]
    simp
  exact readScript_run (skipDirectives_other h hother) hfinish hassignment h2 hv (by omega)
    hallow.depth hallow.nodes hallow.time

theorem finish_not_mem_ofScript (cs : List Char) :
    .finish ∉ (Tokens.ofScript cs).list.map (·.kind) := by
  intro h
  obtain ⟨t, ht, hfinish⟩ := List.mem_map.mp h
  have hlexical := lexical_readTokens _ _ t ht
  rw [hfinish] at hlexical
  exact hlexical

/-- What a script without a flaw exports is the meaning of its expression, which keeps within the
limits. -/
theorem run_sound [Library] (h : run limits bindings source = .ok c) :
    ∃ e : Expression, e.value bindings = some (some c)
      ∧ IsScript (tokensOf source) e
      ∧ e.nodes ≤ limits.nodes ∧ e.depth ≤ limits.depth
      ∧ ∃ place, (Tokens.ofScript source.toList).ending = .finished place := by
  unfold run at h
  split at h
  · cases h
  simp only at h
  split at h
  · cases h
  rename_i s hs
  split at h
  · rename_i c' s' hrun
    cases h
    exact readScript_sound (State.initial_at (finish_not_mem_ofScript _) hs) hrun
  · cases h

end HttpContract.Script
