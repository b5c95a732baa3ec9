import HttpContract.Library.Simple
import HttpContract.Proofs.Script.Lexed
import HttpContract.Proofs.Script.Nesting

/-!
# Script — reading comes to an end

`Readers.unfold` is one unfolding of the readings that call one another: the calls in them are left
open. What the model reads in so many steps is so many unfoldings of readings that stop
(`bounded_succ`). Every call in an unfolding is left with fewer tokens, or reads a name, so beyond
twice as many unfoldings as there are tokens nothing is called any more: it makes no difference what
is unfolded there (`agreeing_iterate`), and so no reading of a script ever runs out of steps.
-/

namespace HttpContract.Script

open Reader

/-! ## One unfolding -/

/-- Readings that call one another. -/
structure Readers where
  expression : Reader (Option Constraint)
  named : String → Reader (Option Constraint)
  fields : List (String × Constraint) → Reader (List (String × Constraint))
  items : Reader (List Constraint)
  arguments : Reader (List (Option Constraint))
  directives : Reader Unit
  semicolons : Reader Unit

/-- The readings of the model in so many steps. -/
def Readers.bounded [Library] (setting : Setting) (steps : Nat) : Readers where
  expression := readExpression setting steps
  named := fun name => readNamed setting name steps
  fields := readFields setting steps
  items := readItems setting steps
  arguments := readArguments setting steps
  directives := skipDirectives setting steps
  semicolons := skipSemicolons setting steps

/-- Reads a member and those behind it, or the symbol that closes them; `keep` is what is kept of
the member. -/
def readMemberBy {α : Type} (setting : Setting) (closing : Symbol) (keep : Option Constraint → α)
    (expression : Reader (Option Constraint)) (more : Reader (List α)) : Reader (List α) := do
  if (← peek) = .symbol closing then
    advance setting
    leave
    return []
  else
    let value ← expression
    separate setting closing
    let rest ← more
    return keep value :: rest

/-- The readings that call the given ones. -/
def Readers.unfold [Library] (setting : Setting) (r : Readers) : Readers where
  expression := do
    countNode setting
    match ← peek with
    | .symbol .leftBrace =>
      advance setting
      enter setting
      return some (.object (← r.fields []))
    | .symbol .leftBracket =>
      advance setting
      enter setting
      return some (.array (← r.items))
    | .string s =>
      advance setting
      return some (.constant (.string s))
    | .number n =>
      advance setting
      return some (.constant (.number n))
    | .symbol .minus =>
      advance setting
      readSigned setting true
    | .symbol .plus =>
      advance setting
      readSigned setting false
    | .identifier name => r.named name
    | _ => unexpected
  named := fun name => do
    if forbiddenNames.contains name then stop (.forbidden name)
    advance setting
    match wordValue? name with
    | some value => return value
    | none =>
      if (← peek) ≠ .symbol .leftParen then stop (.unknownIdentifier name)
      match setting.bindings.lookup name with
      | none => stop (.unknownFunction name)
      | some b =>
        advance setting
        enter setting
        let arguments ← r.arguments
        match b.apply arguments with
        | .ok c => return some c
        | .error e => stop e
  fields := fun fields => do
    let kind ← peek
    if kind = .symbol .rightBrace then
      advance setting
      leave
      return fields
    else
      match keyOf? kind with
      | none => unexpected
      | some key =>
        advance setting
        expect setting .colon
        let value ← r.expression
        separate setting .rightBrace
        r.fields (putField key value fields)
  items := readMemberBy setting .rightBracket (·.getD (.constant .null)) r.expression r.items
  arguments := readMemberBy setting .rightParen id r.expression r.arguments
  directives := do
    let directive := (← get).current
    match directive.kind with
    | .string _ =>
      advance setting
      if (← peek) = .symbol .semicolon then
        advance setting
        r.directives
      else modify fun s => { s with current := directive }
    | _ => return ()
  semicolons := do
    if (← peek) = .symbol .semicolon then
      advance setting
      r.semicolons

/-- Reads a whole script by the given readings. -/
def Readers.script (setting : Setting) (r : Readers) : Reader Constraint := do
  r.directives
  if (← peek) = .finish then stop .noExport
  skipAssignment setting
  let exported ← r.expression
  r.semicolons
  if (← peek) ≠ .finish then unexpected
  match exported with
  | some c => return c
  | none => stop .noExport

/-- One step more is one unfolding more. -/
theorem bounded_succ [Library] (setting : Setting) (steps : Nat) :
    Readers.bounded setting (steps + 1) = (Readers.bounded setting steps).unfold setting := by
  unfold Readers.bounded Readers.unfold
  congr 1

theorem bounded_eq_iterate [Library] (setting : Setting) (steps : Nat) :
    Readers.bounded setting steps
      = (Readers.unfold setting)^[steps] (Readers.bounded setting 0) := by
  induction steps with
  | zero => rfl
  | succ steps ih => rw [bounded_succ, ih, Function.iterate_succ_apply']

theorem readScript_eq_script [Library] (setting : Setting) (steps : Nat) :
    readScript setting steps = (Readers.bounded setting steps).script setting := rfl

/-! ## Tokens that are left -/

/-- How many tokens are still to be read; the end is none. -/
def State.left (s : State) : Nat :=
  s.upcoming.length + if s.current.kind = .finish then 0 else 1

section Left

variable {α β : Type} {setting : Setting} {n m : Nat} {kind : TokenKind} {P Q R : State → Prop}

/-- Two readings that go the same way, from fewer than so many tokens to fewer than so many. -/
abbrev Goes (n m : Nat) (x y : Reader α) : Prop :=
  Follows (fun _ => False) (fun s => s.left < n) (fun s => s.left < m) x y

/-- Two readings that go the same way from a given token on. -/
abbrev GoesAt (kind : TokenKind) (n m : Nat) (x y : Reader α) : Prop :=
  Follows (fun _ => False) (fun s => s.left < n ∧ s.current.kind = kind) (fun s => s.left < m) x y

theorem Follows.imp {stops : Error → Prop} {P' Q' : State → Prop} {x y : Reader α}
    (h : Follows stops P Q x y) (hP : ∀ s, P' s → P s) (hQ : ∀ s, Q s → Q' s) :
    Follows stops P' Q' x y := by
  intro s hs
  have halike := h s (hP s hs)
  generalize x.run s = first, y.run s = second at halike ⊢
  cases halike with
  | stopped he => exact .stopped he _
  | failed e => exact .failed e
  | done a ht => exact .done a (hQ _ ht)

/-- Behind a look at the current token it is known. -/
theorem Follows.peek_bind {stops : Error → Prop} {f g : TokenKind → Reader α}
    (h : ∀ kind, Follows stops (fun s => P s ∧ s.current.kind = kind) Q (f kind) (g kind)) :
    Follows stops P Q (Reader.peek >>= f) (Reader.peek >>= g) :=
  fun s hs => h s.current.kind s ⟨hs, rfl⟩

/-- Behind a look at the state it is known. -/
theorem Follows.get_bind {stops : Error → Prop} {f g : State → Reader α}
    (h : ∀ s, P s → Follows stops (· = s) Q (f s) (g s)) :
    Follows stops P Q (get >>= f) (get >>= g) :=
  fun s hs => h s hs s rfl

theorem Goes.mono {n' m' : Nat} {x y : Reader α} (h : Goes n m x y) (hn : n' ≤ n) (hm : m ≤ m') :
    Goes n' m' x y :=
  h.imp (fun _ hs => hs.trans_le hn) fun _ hs => hs.trans_le hm

theorem Goes.at {x y : Reader α} (h : Goes n m x y) : GoesAt kind n m x y :=
  h.imp (fun _ hs => hs.1) fun _ hs => hs

theorem left_advance {s t : State} {u : Unit} (hkind : s.current.kind ≠ .finish)
    (h : (advance setting).run s = .ok (u, t)) : t.left < s.left := by
  have hnext := next_of_advance h
  rw [State.left, State.left, if_neg hkind]
  unfold State.next at hnext
  split at hnext
  · rename_i hup
    cases hnext
    rw [hup, List.length_cons]
    dsimp only
    split <;> omega
  · rename_i hup _
    cases hnext
    simp [hup]
  · cases hnext

/-- Going on from a token leaves fewer. -/
theorem advance_goes (hkind : kind ≠ .finish) :
    GoesAt kind n (n - 1) (advance setting) (advance setting) := by
  refine .same fun s u t hs hrun => ?_
  obtain ⟨hleft, rfl⟩ := hs
  have hless := left_advance hkind hrun
  omega

/-- Passing over a token and going on goes the same way. -/
theorem advance_bind_goes {x y : Reader α} (hkind : kind ≠ .finish) (h : Goes (n - 1) m x y) :
    GoesAt kind n m (do advance setting; x) (do advance setting; y) :=
  (advance_goes hkind).bind fun _ => h

theorem countNode_goes : Goes n n (countNode setting) (countNode setting) := by
  refine .same fun s u t hs hrun => ?_
  obtain ⟨-, rfl⟩ := run_countNode_ok.mp hrun
  exact hs

theorem enter_goes : Goes n n (enter setting) (enter setting) := by
  refine .same fun s u t hs hrun => ?_
  obtain ⟨-, rfl⟩ := run_enter_ok.mp hrun
  exact hs

theorem leave_goes : Goes n n leave leave := by
  refine .same fun s u t hs hrun => ?_
  cases hrun
  exact hs

theorem expect_goes (symbol : Symbol) :
    Goes n (n - 1) (expect setting symbol) (expect setting symbol) := by
  refine .peek_bind fun kind => ?_
  split
  · rename_i hkind
    exact advance_goes (by simp [hkind])
  · exact .unexpected

theorem separate_goes (closing : Symbol) :
    Goes n n (separate setting closing) (separate setting closing) := by
  refine .peek_bind fun kind => ?_
  split
  · rename_i hkind
    exact (advance_goes (by simp [hkind])).imp (fun _ hs => hs) fun _ => Nat.lt_of_lt_pred
  · split
    · exact Goes.at (.pure ())
    · exact .unexpected

theorem readSigned_goes (negative : Bool) :
    Goes n n (readSigned setting negative) (readSigned setting negative) := by
  refine .peek_bind fun kind => ?_
  split
  · exact advance_bind_goes (by simp) (.imp (.pure _) (fun _ hs => hs) fun _ => Nat.lt_of_lt_pred)
  · exact .unexpected

theorem skipAssignment_goes : Goes n n (skipAssignment setting) (skipAssignment setting) := by
  refine .peek_bind fun kind => ?_
  split
  · rename_i hkind
    refine advance_bind_goes (by simp [hkind]) ((expect_goes .dot).bind fun _ => ?_)
    refine .peek_bind fun kind => ?_
    dsimp only
    split
    · rename_i hkind
      exact advance_bind_goes (by simp [hkind])
        ((expect_goes .equals).mono (Nat.le_refl _) (by omega))
    · exact fun s hs => .failed _
  · exact Goes.at (.pure ())

end Left

/-! ## Unfoldings side by side -/

/-- Readings that go the same way as long as there are steps for the tokens that are left. -/
structure Agreeing (steps : Nat) (r r' : Readers) : Prop where
  expression : ∀ n, 2 * n ≤ steps + 1 → Goes n (n - 1) r.expression r'.expression
  named : ∀ name n, 2 * n ≤ steps + 2 →
    GoesAt (.identifier name) n (n - 1) (r.named name) (r'.named name)
  fields : ∀ fields n, 2 * n ≤ steps → Goes n n (r.fields fields) (r'.fields fields)
  items : ∀ n, 2 * n ≤ steps → Goes n n r.items r'.items
  arguments : ∀ n, 2 * n ≤ steps → Goes n n r.arguments r'.arguments
  directives : ∀ n, n ≤ steps → Goes n n r.directives r'.directives
  semicolons : ∀ n, n ≤ steps → Goes n n r.semicolons r'.semicolons

section Agreeing

variable {setting : Setting} {n m steps : Nat} {r r' : Readers}

theorem Agreeing.unfold_expression [Library] (h : Agreeing steps r r') (hn : 2 * n ≤ steps + 2) :
    Goes n (n - 1) (r.unfold setting).expression (r'.unfold setting).expression := by
  refine countNode_goes.bind fun _ => .peek_bind fun kind => ?_
  split
  · refine advance_bind_goes (by simp) (enter_goes.bind fun _ => ?_)
    exact (h.fields [] (n - 1) (by omega)).bind fun _ => .pure _
  · refine advance_bind_goes (by simp) (enter_goes.bind fun _ => ?_)
    exact (h.items (n - 1) (by omega)).bind fun _ => .pure _
  · exact advance_bind_goes (by simp) (.pure _)
  · exact advance_bind_goes (by simp) (.pure _)
  · exact advance_bind_goes (by simp) (readSigned_goes true)
  · exact advance_bind_goes (by simp) (readSigned_goes false)
  · exact h.named _ n hn
  · exact .unexpected

theorem Agreeing.unfold_named [Library] (h : Agreeing steps r r') (hn : 2 * n ≤ steps + 3)
    (name : String) :
    GoesAt (.identifier name) n (n - 1) ((r.unfold setting).named name)
      ((r'.unfold setting).named name) := by
  dsimp only [Readers.unfold]
  split
  · exact .stop_bind _ _ _
  refine advance_bind_goes (by simp) ?_
  split
  · exact .pure _
  refine .peek_bind fun kind => ?_
  split
  · exact .stop_bind _ _ _
  split
  · exact .stop _
  · refine advance_bind_goes (by simp_all) (enter_goes.bind fun _ => ?_)
    have harguments := h.arguments (n - 1 - 1) (by omega)
    refine (harguments.mono (Nat.le_refl _) (Nat.sub_le _ 1)).bind fun arguments => ?_
    split
    · exact .pure _
    · exact .stop _

/-- A closing symbol ends the members. -/
theorem close_goes {α : Type} (hkind : kind ≠ .finish) (a : α) :
    GoesAt kind n n (do advance setting; leave; return a) (do advance setting; leave; return a) :=
  advance_bind_goes hkind
    (leave_goes.bind fun _ => .imp (.pure a) (fun _ hs => hs) fun _ => Nat.lt_of_lt_pred)

theorem Agreeing.unfold_fields [Library] (h : Agreeing steps r r') (hn : 2 * n ≤ steps + 1)
    (fields : List (String × Constraint)) :
    Goes n n ((r.unfold setting).fields fields) ((r'.unfold setting).fields fields) := by
  refine .peek_bind fun kind => ?_
  split
  · rename_i hkind
    exact close_goes (by simp [hkind]) fields
  · split
    · exact .unexpected
    · rename_i key hkey
      have hfinish : kind ≠ .finish := by
        rintro rfl
        cases hkey
      refine advance_bind_goes hfinish ((expect_goes .colon).bind fun _ => ?_)
      refine (h.expression (n - 1 - 1) (by omega)).bind fun value => ?_
      refine (separate_goes .rightBrace).bind fun _ => ?_
      exact (h.fields _ (n - 1 - 1 - 1) (by omega)).mono (Nat.le_refl _) (by omega)

/-- Items and arguments go the same way. -/
theorem readMemberBy_goes {α : Type} {expression expression' : Reader (Option Constraint)}
    {more more' : Reader (List α)} (closing : Symbol) (keep : Option Constraint → α)
    (hexpression : Goes n (n - 1) expression expression')
    (hmore : Goes (n - 1) (n - 1) more more') :
    Goes n n (readMemberBy setting closing keep expression more)
      (readMemberBy setting closing keep expression' more') := by
  refine .peek_bind fun kind => ?_
  split
  · rename_i hkind
    exact close_goes (by simp [hkind]) []
  · refine hexpression.at.bind fun value => (separate_goes closing).bind fun _ => ?_
    exact (hmore.mono (Nat.le_refl _) (Nat.sub_le n 1)).bind fun rest => .pure _

theorem Agreeing.unfold_semicolons [Library] (h : Agreeing steps r r') (hn : n ≤ steps + 1) :
    Goes n n (r.unfold setting).semicolons (r'.unfold setting).semicolons := by
  refine .peek_bind fun kind => ?_
  split
  · rename_i hkind
    refine advance_bind_goes (by simp [hkind]) ?_
    exact (h.semicolons (n - 1) (by omega)).mono (Nat.le_refl _) (Nat.sub_le n 1)
  · exact Goes.at (.pure ())

theorem Agreeing.unfold_directives [Library] (h : Agreeing steps r r') (hn : n ≤ steps + 1) :
    Goes n n (r.unfold setting).directives (r'.unfold setting).directives := by
  refine .get_bind fun s hs => ?_
  dsimp only
  split
  · rename_i hkind
    have hadvance : Follows (fun _ => False) (· = s) (fun t => t.left < s.left) (advance setting)
        (advance setting) := by
      refine .same fun t u t' ht hrun => ?_
      subst ht
      exact left_advance (by simp [hkind]) hrun
    refine hadvance.bind fun _ => .peek_bind fun kind => ?_
    split
    · rename_i hsemicolon
      refine advance_bind_goes (by simp [hsemicolon]) ?_
      exact (h.directives (n - 1) (by omega)).mono (by omega) (Nat.sub_le n 1)
    -- the text that is put back is one token more
    · refine .same fun t u t' ht hrun => ?_
      cases hrun
      have hleft : t.left < s.left := ht.1
      simp only [State.left] at hleft ⊢ hs
      split <;> omega
  · refine .same fun t u t' ht hrun => ?_
    cases hrun
    exact ht ▸ hs

theorem Agreeing.unfold [Library] (h : Agreeing steps r r') :
    Agreeing (steps + 1) (r.unfold setting) (r'.unfold setting) where
  expression _ hn := h.unfold_expression hn
  named name _ hn := h.unfold_named hn name
  fields fields _ hn := h.unfold_fields hn fields
  items n hn := readMemberBy_goes .rightBracket _ (h.expression n hn) (h.items (n - 1) (by omega))
  arguments n hn :=
    readMemberBy_goes .rightParen _ (h.expression n hn) (h.arguments (n - 1) (by omega))
  directives _ hn := h.unfold_directives hn
  semicolons _ hn := h.unfold_semicolons hn

theorem Agreeing.script (h : Agreeing steps r r') (hn : 2 * n ≤ steps + 1) :
    Goes n n (r.script setting) (r'.script setting) := by
  refine (h.directives n (by omega)).bind fun _ => .peek_bind fun kind => ?_
  dsimp only
  split
  · exact .stop_bind _ _ _
  refine skipAssignment_goes.at.bind fun _ => ?_
  refine ((h.expression n hn).mono (Nat.le_refl _) (Nat.sub_le n 1)).bind fun exported => ?_
  refine (h.semicolons n (by omega)).bind fun _ => .peek_bind fun kind => ?_
  split
  · exact fun s hs => .failed _
  split
  · exact Goes.at (.pure _)
  · exact .stop _

/-- With enough unfoldings it makes no difference what is unfolded. -/
theorem agreeing_iterate [Library] (setting : Setting) (steps : Nat) (r r' : Readers) :
    Agreeing steps ((Readers.unfold setting)^[steps] r) ((Readers.unfold setting)^[steps] r') := by
  induction steps with
  | zero =>
    -- without a step there is room for no token
    have hnone : ∀ {α : Type} {n m : Nat} {x y : Reader α}, 2 * n ≤ 1 → Goes n m x y :=
      fun hn s hs => absurd hs (by omega)
    refine ⟨fun n hn => hnone hn, fun name n hn s hs => ?_, fun _ n hn => hnone (by omega),
      fun n hn => hnone (by omega), fun n hn => hnone (by omega), fun n hn => hnone (by omega),
      fun n hn => hnone (by omega)⟩
    have hleft : 0 < s.left := by
      rw [State.left, if_neg (by simp [hs.2])]
      exact Nat.succ_pos _
    have hless := hs.1
    omega
  | succ steps ih =>
    rw [Function.iterate_succ_apply', Function.iterate_succ_apply']
    exact ih.unfold

/-- A reading of a script that has two steps for every token, and one, goes as any unfolding does
that is no shorter. -/
theorem script_iterate [Library] (r r' : Readers) {s : State} {steps' : Nat}
    (hsteps : 2 * s.left + 1 ≤ steps) (hsteps' : 2 * s.left + 1 ≤ steps') :
    (((Readers.unfold setting)^[steps] r).script setting).run s
      = (((Readers.unfold setting)^[steps'] r').script setting).run s := by
  have hgo : ∀ {k : Nat} (r : Readers), 2 * s.left + 1 ≤ k →
      (((Readers.unfold setting)^[k] r).script setting).run s
        = (((Readers.unfold setting)^[2 * s.left + 1] r').script setting).run s := by
    intro k r hk
    obtain ⟨more, rfl⟩ := Nat.exists_eq_add_of_le hk
    rw [Function.iterate_add_apply]
    have hagree := agreeing_iterate setting (2 * s.left + 1) ((Readers.unfold setting)^[more] r) r'
    exact (hagree.script (n := s.left + 1) (by omega) s (Nat.lt_succ_self _)).eq
  rw [hgo r hsteps, hgo r' hsteps']

end Agreeing

/-! ## Scripts -/

/-- A script starts with no more tokens than it has. -/
theorem left_initial {tokens : Tokens} {s : State} (h : State.initial tokens = .ok s) :
    s.left ≤ tokens.list.length := by
  unfold State.initial at h
  split at h
  · rename_i hlist
    cases h
    rw [hlist, State.left, List.length_cons]
    dsimp only
    split <;> omega
  · cases h
    simp [State.left]
  · cases h

section Simple

attribute [local instance] Library.simple

end Simple

end HttpContract.Script
