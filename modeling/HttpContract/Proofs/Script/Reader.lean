import HttpContract.Proofs.Script.Expression

/-!
# Script — steps of reading

`State.At` says which tokens are still to be read and what is used up. Each step of reading has a
lemma about what it does there: when it succeeds and what is left to be read behind it.
-/

namespace HttpContract.Script

open Reader

variable {setting : Setting} {s s' : State} {ending : Ending} {k : TokenKind}
  {ks : List TokenKind} {n d : Nat}

/-! ## Where reading stands -/

/-- The tokens that are still to be read; the end of the script is not counted. -/
def State.Shows (s : State) : List TokenKind → Prop
  | [] => s.current.kind = .finish ∧ s.upcoming = []
  | k :: ks => s.current.kind = k ∧ s.upcoming.map (·.kind) = ks ∧ .finish ∉ k :: ks

/-- Where reading stands: what is still to be read, how the script ends, and the nodes and levels
that are used up. Nothing is left to be read only where the script has no flaw. -/
structure State.At (s : State) (ending : Ending) (ks : List TokenKind) (nodes depth : Nat) :
    Prop where
  shows : s.Shows ks
  finished : ks = [] → ∃ place, ending = .finished place
  ending : s.ending = ending
  nodes : s.nodes = nodes
  depth : s.depth = depth

theorem State.Shows.unique {ls : List TokenKind} (h : s.Shows ks) (h' : s.Shows ls) :
    ks = ls := by
  cases ks with
  | nil =>
    cases ls with
    | nil => rfl
    | cons l ls => exact absurd (h'.1.symm.trans h.1) fun hl => h'.2.2 (hl ▸ List.mem_cons_self)
  | cons k ks =>
    cases ls with
    | nil => exact absurd (h.1.symm.trans h'.1) fun hk => h.2.2 (hk ▸ List.mem_cons_self)
    | cons l ls => rw [← h.1, ← h'.1, ← h.2.1, ← h'.2.1]

theorem State.At.kind (h : s.At ending (k :: ks) n d) : s.current.kind = k := h.shows.1

/-- A token that is not the end is the first of those to be read. -/
theorem State.At.cons_of_kind (h : s.At ending ks n d) (hk : s.current.kind ≠ .finish) :
    ∃ ls, ks = s.current.kind :: ls := by
  cases ks with
  | nil => exact absurd h.shows.1 hk
  | cons k ls => exact ⟨ls, by rw [h.kind]⟩

/-- Only the end is left where the end is the current token. -/
theorem State.At.eq_nil (h : s.At ending ks n d) (hk : s.current.kind = .finish) : ks = [] := by
  cases ks with
  | nil => rfl
  | cons k ls =>
    obtain ⟨hcurrent, -, hfinish⟩ := h.shows
    rw [hk] at hcurrent
    exact absurd (hcurrent ▸ List.mem_cons_self) hfinish

/-! ## Steps -/

theorem run_bind_ok {α β : Type} {x : Reader α} {f : α → Reader β} {r : β × State} :
    (x >>= f).run s = .ok r ↔ ∃ a t, x.run s = .ok (a, t) ∧ (f a).run t = .ok r := by
  rw [StateT.run_bind]
  cases hx : x.run s with
  | error e => simp [Bind.bind, Except.bind]
  | ok p =>
    constructor
    · intro h
      exact ⟨p.1, p.2, rfl, h⟩
    · rintro ⟨a, t, hp, h⟩
      cases hp
      exact h

theorem run_pure_ok {α : Type} {a : α} {r : α × State} :
    (pure a : Reader α).run s = .ok r ↔ r = (a, s) := by
  rw [StateT.run_pure]
  exact ⟨fun h => (Except.ok.inj h).symm, fun h => congrArg Except.ok h.symm⟩

/-- Looking at the current token leaves the rest to what depends on it. -/
theorem peek_bind {α : Type} (f : TokenKind → Reader α) :
    (peek >>= f).run s = (f s.current.kind).run s := rfl

@[simp] theorem run_stop {α : Type} (e : Error) : (stop e : Reader α).run s = .error e := rfl

@[simp] theorem run_unexpected {α : Type} :
    (unexpected : Reader α).run s
      = .error (.malformed s.current.place (.unexpected s.current.kind)) := rfl

theorem run_advance :
    (advance setting).run s = match s.next with
      | .error e => .error e
      | .ok t =>
        if t.tokens % clockInterval = 0 ∧ setting.limits.noTime then .error .timedOut
        else .ok ((), t) := by
  have hlift : (liftM s.next : Reader State).run s = s.next.map fun t => (t, s) := by
    cases s.next <;> rfl
  simp only [advance, StateT.run_bind, StateT.run_get, pure_bind, hlift]
  cases s.next with
  | error e => rfl
  | ok t =>
    simp only [Except.map, Bind.bind, Except.bind, StateT.run_set, pure, Except.pure]
    split <;> rfl

/-- Going on leads to the next token. -/
theorem next_of_advance {u : Unit} (h : (advance setting).run s = .ok (u, s')) :
    s.next = .ok s' := by
  rw [run_advance] at h
  split at h
  · cases h
  · split at h <;> cases h
    assumption

/-- Going on passes over the first of the tokens to be read. -/
theorem State.At.advance_sound {u : Unit} (h : s.At ending (k :: ks) n d)
    (hrun : (advance setting).run s = .ok (u, s')) : s'.At ending ks n d := by
  obtain ⟨-, hkinds, hfinish⟩ := h.shows
  have hnext := next_of_advance hrun
  unfold State.next at hnext
  split at hnext
  · rename_i t rest hup
    cases hnext
    subst hkinds
    rw [hup] at hfinish ⊢
    simp only [List.map_cons, List.mem_cons, not_or] at hfinish
    exact ⟨⟨rfl, rfl, by simp [hfinish.2.1, hfinish.2.2]⟩, nofun, h.ending, h.nodes, h.depth⟩
  · rename_i place hup hending
    cases hnext
    subst hkinds
    rw [hup]
    exact ⟨⟨rfl, rfl⟩, fun _ => ⟨place, h.ending.symm.trans hending⟩, h.ending, h.nodes, h.depth⟩
  · cases hnext

/-- In a script without a flaw reading goes on, unless the clock stops it. -/
theorem State.At.advance_run {place : Place} (h : s.At (.finished place) (k :: ks) n d)
    (htime : setting.limits.noTime = false) :
    ∃ s', (advance setting).run s = .ok ((), s') ∧ s'.At (.finished place) ks n d := by
  have hnext : ∃ s', s.next = .ok s' := by
    unfold State.next
    rw [h.ending]
    split
    · exact ⟨_, rfl⟩
    · exact ⟨_, rfl⟩
    · contradiction
  obtain ⟨s', hnext⟩ := hnext
  have hrun : (advance setting).run s = .ok ((), s') := by
    rw [run_advance, hnext]
    simp [htime]
  exact ⟨s', hrun, h.advance_sound hrun⟩

theorem ok_unless {p : Prop} [Decidable p] {e : Error} {t : State} {u : Unit} :
    (if p then .error e else .ok ((), t) : Except Error (Unit × State)) = .ok (u, s')
      ↔ ¬p ∧ s' = t := by
  split
  · simp [*]
  · simp [*, eq_comm]

theorem run_countNode : (countNode setting).run s
    = if setting.limits.nodes < s.nodes + 1 then
        .error (.limitExceeded .nodes setting.limits.nodes)
      else .ok ((), { s with nodes := s.nodes + 1 }) := by
  simp only [countNode, StateT.run_bind, StateT.run_get, pure_bind, StateT.run_set]
  split <;> rfl

theorem run_countNode_ok {u : Unit} :
    (countNode setting).run s = .ok (u, s')
      ↔ s.nodes + 1 ≤ setting.limits.nodes ∧ s' = { s with nodes := s.nodes + 1 } := by
  rw [run_countNode, ok_unless, Nat.not_lt]

theorem run_enter : (enter setting).run s
    = if setting.limits.depth < s.depth + 1 then
        .error (.limitExceeded .depth setting.limits.depth)
      else .ok ((), { s with depth := s.depth + 1 }) := by
  simp only [enter, StateT.run_bind, StateT.run_get, pure_bind, StateT.run_set]
  split <;> rfl

theorem run_enter_ok {u : Unit} :
    (enter setting).run s = .ok (u, s')
      ↔ s.depth + 1 ≤ setting.limits.depth ∧ s' = { s with depth := s.depth + 1 } := by
  rw [run_enter, ok_unless, Nat.not_lt]

theorem run_leave : leave.run s = .ok ((), { s with depth := s.depth - 1 }) := rfl

theorem State.At.counted (h : s.At ending ks n d) :
    { s with nodes := s.nodes + 1 }.At ending ks (n + 1) d :=
  ⟨by cases ks <;> exact h.shows, h.finished, h.ending, by rw [← h.nodes], h.depth⟩

theorem State.At.entered (h : s.At ending ks n d) :
    { s with depth := s.depth + 1 }.At ending ks n (d + 1) :=
  ⟨by cases ks <;> exact h.shows, h.finished, h.ending, h.nodes, by rw [← h.depth]⟩

theorem State.At.left (h : s.At ending ks n (d + 1)) :
    { s with depth := s.depth - 1 }.At ending ks n d :=
  ⟨by cases ks <;> exact h.shows, h.finished, h.ending, h.nodes, by
    show s.depth - 1 = d
    rw [h.depth, Nat.add_sub_cancel]⟩

/-! ## Levels -/

/-- Passing over an opening symbol goes down one level, if the limits let it. -/
theorem State.At.open_run {place : Place} (h : s.At (.finished place) (k :: ks) n d)
    (hdepth : d + 1 ≤ setting.limits.depth) (htime : setting.limits.noTime = false) :
    ∃ s1 s2, (advance setting).run s = .ok ((), s1) ∧ (enter setting).run s1 = .ok ((), s2)
      ∧ s2.At (.finished place) ks n (d + 1) := by
  obtain ⟨s1, hadvance, h1⟩ := h.advance_run htime
  have hs1 : s1.depth + 1 ≤ setting.limits.depth := by rwa [h1.depth]
  exact ⟨s1, _, hadvance, run_enter_ok.mpr ⟨hs1, rfl⟩, h1.entered⟩

theorem State.At.open_sound {u w : Unit} {s1 s2 : State} (h : s.At ending (k :: ks) n d)
    (hadvance : (advance setting).run s = .ok (u, s1))
    (henter : (enter setting).run s1 = .ok (w, s2)) :
    d + 1 ≤ setting.limits.depth ∧ s2.At ending ks n (d + 1) := by
  have h1 := h.advance_sound hadvance
  obtain ⟨hdepth, rfl⟩ := run_enter_ok.mp henter
  rw [h1.depth] at hdepth
  exact ⟨hdepth, h1.entered⟩

/-- Passing over a closing symbol goes up again. -/
theorem State.At.close_run {place : Place} (h : s.At (.finished place) (k :: ks) n (d + 1))
    (htime : setting.limits.noTime = false) :
    ∃ s1 s2, (advance setting).run s = .ok ((), s1) ∧ leave.run s1 = .ok ((), s2)
      ∧ s2.At (.finished place) ks n d := by
  obtain ⟨s1, hadvance, h1⟩ := h.advance_run htime
  exact ⟨s1, _, hadvance, run_leave, h1.left⟩

theorem State.At.close_sound {u w : Unit} {s1 s2 : State} (h : s.At ending (k :: ks) n (d + 1))
    (hadvance : (advance setting).run s = .ok (u, s1)) (hleave : leave.run s1 = .ok (w, s2)) :
    s2.At ending ks n d := by
  rw [run_leave] at hleave
  cases hleave
  exact (h.advance_sound hadvance).left

/-! ## Symbols -/

theorem run_expect_ok {u : Unit} {symbol : Symbol} :
    (expect setting symbol).run s = .ok (u, s')
      ↔ s.current.kind = .symbol symbol ∧ (advance setting).run s = .ok (u, s') := by
  rw [expect, peek_bind]
  split
  · simp [*]
  · simp [*]

/-- Behind a member stands a comma, which is passed over, or the closing symbol. -/
theorem State.At.separate_sound {u : Unit} {closing : Symbol} (h : s.At ending ks n d)
    (hrun : (separate setting closing).run s = .ok (u, s')) :
    (∃ ls, ks = .symbol .comma :: ls ∧ s'.At ending ls n d)
      ∨ ∃ ls, ks = .symbol closing :: ls ∧ s' = s := by
  rw [separate, peek_bind] at hrun
  split at hrun
  · rename_i hcomma
    obtain ⟨ls, rfl⟩ := h.cons_of_kind (by simp [hcomma])
    rw [hcomma] at h
    exact .inl ⟨ls, by rw [hcomma], h.advance_sound hrun⟩
  split at hrun
  · rename_i hclosing
    obtain ⟨ls, rfl⟩ := h.cons_of_kind (by simp [hclosing])
    rw [run_pure_ok] at hrun
    exact .inr ⟨ls, by rw [hclosing], congrArg Prod.snd hrun⟩
  · simp at hrun

theorem separator_cases {α : Type} (trailing : Bool) (rest : List α) :
    separator trailing rest = [.symbol .comma]
      ∨ (separator trailing rest = [] ∧ rest = [] ∧ trailing = false) := by
  unfold separator
  split <;> simp_all

/-- The separator behind a member is passed over. -/
theorem State.At.separate_run {α : Type} {place : Place} (closing : Symbol) {trailing : Bool}
    {rest : List α} (h : s.At (.finished place) (separator trailing rest ++ ks) n d)
    (hclosing : rest = [] → ∃ ls, ks = .symbol closing :: ls) (hne : closing ≠ .comma)
    (htime : setting.limits.noTime = false) :
    ∃ s', (separate setting closing).run s = .ok ((), s') ∧ s'.At (.finished place) ks n d := by
  rw [separate, peek_bind]
  rcases separator_cases trailing rest with hsep | ⟨hsep, hrest, -⟩
  · rw [hsep] at h
    rw [if_pos h.kind]
    exact h.advance_run htime
  · rw [hsep, List.nil_append] at h
    obtain ⟨ls, rfl⟩ := hclosing hrest
    rw [if_neg (by rw [h.kind]; simpa using hne), if_pos h.kind]
    exact ⟨s, rfl, h⟩

end HttpContract.Script
