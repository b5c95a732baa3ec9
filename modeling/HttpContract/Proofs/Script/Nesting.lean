import HttpContract.Proofs.Script.Reader

/-!
# Script — readings within one another

A reading of an expression starts readings of the expressions within it. `readExpressionWith` leaves
those open, and `readWithin` fills them in so often that a given number of readings can be started
within one another; what would be started beyond is not this reader's. `Follows` compares two
readings that start alike, one of which may be stopped where the other goes on. Reading follows
itself under wider limits, and within a room of one more than the levels that are left nothing
beyond is ever started (`readWithin_follows`).
-/

namespace HttpContract.Script

open Reader

/-! ## Readings with others inside -/

section Open

variable (setting : Setting) (inner : Nat → Reader (Option Constraint))

/-- Reads the fields of an object as `readFields` does, expressions being read by `inner`. -/
def readFieldsWith : Nat → List (String × Constraint) → Reader (List (String × Constraint))
  | 0, _ => unexpected
  | steps + 1, fields => do
    let kind ← peek
    if kind = .symbol .rightBrace then
      advance setting
      leave
      return fields
    else
      match keyOf? kind with
      | none => unexpected
      | some key =>
        advance setting
        expect setting .colon
        let value ← inner steps
        separate setting .rightBrace
        readFieldsWith steps (putField key value fields)

/-- Reads items or arguments and the symbol behind them, expressions being read by `inner`; `keep`
is what is kept of a value. -/
def readMembersWith {α : Type} (closing : Symbol) (keep : Option Constraint → α) :
    Nat → Reader (List α)
  | 0 => unexpected
  | steps + 1 => do
    if (← peek) = .symbol closing then
      advance setting
      leave
      return []
    else
      let value ← inner steps
      separate setting closing
      let more ← readMembersWith closing keep steps
      return keep value :: more

/-- Reads a word or a call as `readNamed` does, arguments being read by `inner`. -/
def readNamedWith [Library] (name : String) : Nat → Reader (Option Constraint)
  | 0 => unexpected
  | steps + 1 => do
    if forbiddenNames.contains name then stop (.forbidden name)
    advance setting
    match wordValue? name with
    | some value => return value
    | none =>
      if (← peek) ≠ .symbol .leftParen then stop (.unknownIdentifier name)
      match setting.bindings.lookup name with
      | none => stop (.unknownFunction name)
      | some b =>
        advance setting
        enter setting
        let arguments ← readMembersWith setting inner .rightParen id steps
        match b.apply arguments with
        | .ok c => return some c
        | .error e => stop e

/-- Reads an expression as `readExpression` does, those within it being read by `inner`. -/
def readExpressionWith [Library] : Nat → Reader (Option Constraint)
  | 0 => unexpected
  | steps + 1 => do
    countNode setting
    match ← peek with
    | .symbol .leftBrace =>
      advance setting
      enter setting
      return some (.object (← readFieldsWith setting inner steps []))
    | .symbol .leftBracket =>
      advance setting
      enter setting
      return some (.array (← readMembersWith setting inner .rightBracket
        (·.getD (.constant .null)) steps))
    | .string s =>
      advance setting
      return some (.constant (.string s))
    | .number n =>
      advance setting
      return some (.constant (.number n))
    | .symbol .minus =>
      advance setting
      readSigned setting true
    | .symbol .plus =>
      advance setting
      readSigned setting false
    | .identifier name => readNamedWith setting inner name steps
    | _ => unexpected

/-- Reads a whole script as `readScript` does, its expression being read by `expression`. -/
def readScriptWith (expression : Reader (Option Constraint)) (steps : Nat) :
    Reader Constraint := do
  skipDirectives setting steps
  if (← peek) = .finish then stop .noExport
  skipAssignment setting
  let exported ← expression
  skipSemicolons setting steps
  if (← peek) ≠ .finish then unexpected
  match exported with
  | some c => return c
  | none => stop .noExport

end Open

/-- Reads an expression with room for so many readings within one another. One that is started
beyond is `beyond`. -/
def readWithin [Library] (setting : Setting) (beyond : Nat → Reader (Option Constraint)) :
    Nat → Nat → Reader (Option Constraint)
  | 0, steps => beyond steps
  | room + 1, steps => readExpressionWith setting (readWithin setting beyond room) steps

variable {setting : Setting}

/-! Reading is what is left open, filled in with itself. Both sides then match on the same data. -/

theorem readFields_eq_with [Library] (steps : Nat) (fields : List (String × Constraint)) :
    readFields setting steps fields
      = readFieldsWith setting (readExpression setting) steps fields := by
  induction steps generalizing fields with
  | zero => rfl
  | succ steps ih =>
    have hrest : readFields setting steps
        = readFieldsWith setting (readExpression setting) steps := funext ih
    unfold readFields readFieldsWith
    exact hrest ▸ rfl

theorem readItems_eq_with [Library] (steps : Nat) :
    readItems setting steps = readMembersWith setting (readExpression setting) .rightBracket
      (·.getD (.constant .null)) steps := by
  induction steps with
  | zero => rfl
  | succ steps ih =>
    unfold readItems readMembersWith
    simp only [ih]

theorem readArguments_eq_with [Library] (steps : Nat) :
    readArguments setting steps
      = readMembersWith setting (readExpression setting) .rightParen id steps := by
  induction steps with
  | zero => rfl
  | succ steps ih =>
    unfold readArguments readMembersWith
    simp only [ih, id]

theorem readNamed_eq_with [Library] (name : String) (steps : Nat) :
    readNamed setting name steps = readNamedWith setting (readExpression setting) name steps := by
  cases steps with
  | zero => rfl
  | succ steps =>
    unfold readNamed readNamedWith
    exact readArguments_eq_with steps ▸ rfl

theorem readExpression_eq_with [Library] (steps : Nat) :
    readExpression setting steps
      = readExpressionWith setting (readExpression setting) steps := by
  cases steps with
  | zero => rfl
  | succ steps =>
    have hnamed : (readNamed setting · steps)
        = (readNamedWith setting (readExpression setting) · steps) :=
      funext (readNamed_eq_with · steps)
    unfold readExpression readExpressionWith
    simp only [readFields_eq_with, readItems_eq_with]
    exact hnamed ▸ rfl

/-- Where what is beyond is reading itself, there is room for any number of readings. -/
theorem readWithin_readExpression [Library] (room steps : Nat) :
    readWithin setting (readExpression setting) room steps = readExpression setting steps := by
  induction room generalizing steps with
  | zero => rfl
  | succ room ih =>
    rw [readWithin, readExpression_eq_with]
    congr 1
    exact funext ih

theorem readScript_eq_with [Library] (steps : Nat) :
    readScript setting steps = readScriptWith setting (readExpression setting steps) steps := rfl

/-! ## Readings side by side -/

section Follows

variable {α β : Type} {stops : Error → Prop} {P Q R : State → Prop}

/-- Outcomes of two readings side by side: the first one was stopped, or both failed with the same
error, or both gave the same value and stand at the same place. -/
inductive Alike (stops : Error → Prop) (Q : State → Prop) :
    Except Error (α × State) → Except Error (α × State) → Prop where
  | stopped {e : Error} (h : stops e) (r : Except Error (α × State)) : Alike stops Q (.error e) r
  | failed (e : Error) : Alike stops Q (.error e) (.error e)
  | done (a : α) {s : State} (h : Q s) : Alike stops Q (.ok (a, s)) (.ok (a, s))

theorem Alike.eq_or_stopped {x y : Except Error (α × State)} (h : Alike stops Q x y) :
    x = y ∨ ∃ e, stops e ∧ x = .error e := by
  cases h with
  | stopped he r => exact .inr ⟨_, he, rfl⟩
  | failed e => exact .inl rfl
  | done a hs => exact .inl rfl

theorem Alike.eq {x y : Except Error (α × State)} (h : Alike (fun _ => False) Q x y) : x = y := by
  rcases h.eq_or_stopped with heq | ⟨e, he, -⟩
  · exact heq
  · exact he.elim

/-- From any state with `P` two readings go alike, to a state with `Q` if they give a value. -/
def Follows (stops : Error → Prop) (P Q : State → Prop) (x y : Reader α) : Prop :=
  ∀ s, P s → Alike stops Q (x.run s) (y.run s)

theorem Follows.same {x : Reader α} (h : ∀ s a t, P s → x.run s = .ok (a, t) → Q t) :
    Follows stops P Q x x := by
  intro s hs
  cases hrun : x.run s with
  | error e => exact .failed e
  | ok r => exact .done r.1 (h s r.1 r.2 hs hrun)

theorem Follows.pure (a : α) : Follows stops P P (pure a : Reader α) (Pure.pure a) :=
  fun _ hs => .done a hs

theorem Follows.stop (e : Error) : Follows stops P Q (stop e : Reader α) (Reader.stop e) :=
  fun _ _ => .failed e

/-- Nothing is done behind an error. -/
theorem Follows.stop_bind (e : Error) (f g : α → Reader β) :
    Follows stops P Q (Reader.stop e >>= f) (Reader.stop e >>= g) :=
  fun _ _ => .failed e

theorem Follows.unexpected : Follows stops P Q (unexpected : Reader α) Reader.unexpected :=
  fun _ _ => .failed _

theorem Follows.peek : Follows stops P P peek Reader.peek :=
  fun s hs => .done s.current.kind hs

theorem Follows.bind {x y : Reader α} {f g : α → Reader β} (h : Follows stops P Q x y)
    (hf : ∀ a, Follows stops Q R (f a) (g a)) : Follows stops P R (x >>= f) (y >>= g) := by
  intro s hs
  rw [StateT.run_bind, StateT.run_bind]
  have hfirst := h s hs
  generalize x.run s = r at hfirst
  generalize y.run s = r' at hfirst
  cases hfirst with
  | stopped he r => exact .stopped he _
  | failed e => exact .failed e
  | done a ht => exact hf a _ ht

end Follows

/-! ## Wider limits -/

/-- The limit of a resource. -/
def Limits.bound (limits : Limits) : Resource → Nat
  | .size => limits.size
  | .depth => limits.depth
  | .nodes => limits.nodes

/-- Limits of which the first are nowhere wider than the second. Where they are narrower, exceeding
them is one of the errors that `stops` names. -/
structure Limits.Within (limits limits' : Limits) (stops : Error → Prop) : Prop where
  time : limits.noTime = limits'.noTime
  le : ∀ r, limits.bound r ≤ limits'.bound r
  stops : ∀ r, limits.bound r < limits'.bound r → stops (.limitExceeded r (limits.bound r))

theorem Limits.Within.refl (limits : Limits) : limits.Within limits fun _ => False :=
  ⟨rfl, fun _ => Nat.le_refl _, fun _ h => absurd h (Nat.lt_irrefl _)⟩

/-- A state that many levels deep, none being deeper than `deepest`. -/
def State.Deep (deepest depth : Nat) (s : State) : Prop := s.depth = depth ∧ depth ≤ deepest

section Within

variable {limits limits' : Limits} {stops : Error → Prop} {bindings : Bindings} {m d : Nat}
  {inner inner' : Nat → Reader (Option Constraint)}

theorem advance_depth {s t : State} {u : Unit} (h : (advance setting).run s = .ok (u, t)) :
    t.depth = s.depth := by
  have hnext := next_of_advance h
  unfold State.next at hnext
  split at hnext <;> cases hnext <;> rfl

theorem advance_follows (h : limits.Within limits' stops) :
    Follows stops (State.Deep m d) (State.Deep m d) (advance ⟨bindings, limits⟩)
      (advance ⟨bindings, limits'⟩) := by
  have hsame : advance ⟨bindings, limits⟩ = advance ⟨bindings, limits'⟩ := by
    unfold advance
    simp only [h.time]
  rw [hsame]
  exact .same fun s u t hs hrun => ⟨(advance_depth hrun).trans hs.1, hs.2⟩

/-- A limit that is checked stops the first reading, or both, or neither. -/
theorem alike_limit {α : Type} {Q : State → Prop} (h : limits.Within limits' stops) (r : Resource)
    (used : Nat) {a : α} {s : State} (hs : used ≤ limits'.bound r → Q s) :
    Alike stops Q
      (if limits.bound r < used then .error (.limitExceeded r (limits.bound r)) else .ok (a, s))
      (if limits'.bound r < used then .error (.limitExceeded r (limits'.bound r))
        else .ok (a, s)) := by
  have hle := h.le r
  by_cases hfirst : limits.bound r < used
  · rw [if_pos hfirst]
    rcases Nat.lt_or_eq_of_le hle with hlt | heq
    · exact .stopped (h.stops r hlt) _
    · rw [← heq, if_pos hfirst]
      exact .failed _
  · rw [if_neg hfirst]
    by_cases hsecond : limits'.bound r < used
    · exact absurd (Nat.lt_of_le_of_lt hle hsecond) hfirst
    · rw [if_neg hsecond]
      exact .done a (hs (Nat.not_lt.mp hsecond))

theorem countNode_follows (h : limits.Within limits' stops) :
    Follows stops (State.Deep m d) (State.Deep m d) (countNode ⟨bindings, limits⟩)
      (countNode ⟨bindings, limits'⟩) := by
  intro s hs
  rw [run_countNode, run_countNode]
  exact alike_limit h .nodes (s.nodes + 1) fun _ => hs

theorem enter_follows (h : limits.Within limits' stops) (hm : limits'.depth ≤ m) :
    Follows stops (State.Deep m d) (State.Deep m (d + 1)) (enter ⟨bindings, limits⟩)
      (enter ⟨bindings, limits'⟩) := by
  intro s hs
  rw [run_enter, run_enter]
  refine alike_limit h .depth (s.depth + 1) fun hle => ⟨by rw [← hs.1], ?_⟩
  rw [← hs.1]
  exact Nat.le_trans hle hm

theorem leave_follows :
    Follows stops (State.Deep m (d + 1)) (State.Deep m d) leave leave := by
  refine .same fun s u t hs hrun => ?_
  rw [run_leave] at hrun
  cases hrun
  exact ⟨by rw [hs.1, Nat.add_sub_cancel], Nat.le_of_succ_le hs.2⟩

theorem expect_follows (h : limits.Within limits' stops) (symbol : Symbol) :
    Follows stops (State.Deep m d) (State.Deep m d) (expect ⟨bindings, limits⟩ symbol)
      (expect ⟨bindings, limits'⟩ symbol) := by
  refine Follows.peek.bind fun kind => ?_
  split
  · exact advance_follows h
  · exact .unexpected

theorem separate_follows (h : limits.Within limits' stops) (closing : Symbol) :
    Follows stops (State.Deep m d) (State.Deep m d) (separate ⟨bindings, limits⟩ closing)
      (separate ⟨bindings, limits'⟩ closing) := by
  refine Follows.peek.bind fun kind => ?_
  split
  · exact advance_follows h
  · split
    · exact .pure ()
    · exact .unexpected

theorem readSigned_follows (h : limits.Within limits' stops) (negative : Bool) :
    Follows stops (State.Deep m d) (State.Deep m d) (readSigned ⟨bindings, limits⟩ negative)
      (readSigned ⟨bindings, limits'⟩ negative) := by
  refine Follows.peek.bind fun kind => ?_
  split
  · exact (advance_follows h).bind fun _ => .pure _
  · exact .unexpected

/-- Closing symbols lead one level up. -/
theorem close_follows {α : Type} (h : limits.Within limits' stops) (a : α) :
    Follows stops (State.Deep m (d + 1)) (State.Deep m d)
      (do advance ⟨bindings, limits⟩; leave; return a)
      (do advance ⟨bindings, limits'⟩; leave; return a) :=
  (advance_follows h).bind fun _ => leave_follows.bind fun _ => .pure a

theorem readFieldsWith_follows (h : limits.Within limits' stops)
    (hinner : ∀ steps, Follows stops (State.Deep m (d + 1)) (State.Deep m (d + 1)) (inner steps)
      (inner' steps)) (steps : Nat) (fields : List (String × Constraint)) :
    Follows stops (State.Deep m (d + 1)) (State.Deep m d)
      (readFieldsWith ⟨bindings, limits⟩ inner steps fields)
      (readFieldsWith ⟨bindings, limits'⟩ inner' steps fields) := by
  induction steps generalizing fields with
  | zero => exact .unexpected
  | succ steps ih =>
    unfold readFieldsWith
    refine Follows.peek.bind fun kind => ?_
    split
    · exact close_follows h fields
    · split
      · exact .unexpected
      · refine (advance_follows h).bind fun _ => (expect_follows h .colon).bind fun _ => ?_
        refine (hinner steps).bind fun value => (separate_follows h .rightBrace).bind fun _ => ?_
        exact ih _

theorem readMembersWith_follows {α : Type} (h : limits.Within limits' stops)
    (hinner : ∀ steps, Follows stops (State.Deep m (d + 1)) (State.Deep m (d + 1)) (inner steps)
      (inner' steps)) (closing : Symbol) (keep : Option Constraint → α) (steps : Nat) :
    Follows stops (State.Deep m (d + 1)) (State.Deep m d)
      (readMembersWith ⟨bindings, limits⟩ inner closing keep steps)
      (readMembersWith ⟨bindings, limits'⟩ inner' closing keep steps) := by
  induction steps with
  | zero => exact .unexpected
  | succ steps ih =>
    unfold readMembersWith
    refine Follows.peek.bind fun kind => ?_
    split
    · exact close_follows h []
    · refine (hinner steps).bind fun value => (separate_follows h closing).bind fun _ => ?_
      exact ih.bind fun more => .pure _

theorem readNamedWith_follows [Library] (h : limits.Within limits' stops) (hm : limits'.depth ≤ m)
    (hinner : ∀ steps, Follows stops (State.Deep m (d + 1)) (State.Deep m (d + 1)) (inner steps)
      (inner' steps)) (name : String) (steps : Nat) :
    Follows stops (State.Deep m d) (State.Deep m d)
      (readNamedWith ⟨bindings, limits⟩ inner name steps)
      (readNamedWith ⟨bindings, limits'⟩ inner' name steps) := by
  cases steps with
  | zero => exact .unexpected
  | succ steps =>
    dsimp only [readNamedWith]
    split
    · exact .stop_bind _ _ _
    refine (advance_follows h).bind fun _ => ?_
    split
    · exact .pure _
    refine Follows.peek.bind fun kind => ?_
    split
    · exact .stop_bind _ _ _
    split
    · exact .stop _
    · refine (advance_follows h).bind fun _ => (enter_follows h hm).bind fun _ => ?_
      refine (readMembersWith_follows h hinner .rightParen id steps).bind fun arguments => ?_
      split
      · exact .pure _
      · exact .stop _

theorem readExpressionWith_follows [Library] (h : limits.Within limits' stops)
    (hm : limits'.depth ≤ m)
    (hinner : ∀ steps, Follows stops (State.Deep m (d + 1)) (State.Deep m (d + 1)) (inner steps)
      (inner' steps)) (steps : Nat) :
    Follows stops (State.Deep m d) (State.Deep m d)
      (readExpressionWith ⟨bindings, limits⟩ inner steps)
      (readExpressionWith ⟨bindings, limits'⟩ inner' steps) := by
  cases steps with
  | zero => exact .unexpected
  | succ steps =>
    dsimp only [readExpressionWith]
    refine (countNode_follows h).bind fun _ => Follows.peek.bind fun kind => ?_
    split
    · refine (advance_follows h).bind fun _ => (enter_follows h hm).bind fun _ => ?_
      exact (readFieldsWith_follows h hinner steps []).bind fun vs => .pure _
    · refine (advance_follows h).bind fun _ => (enter_follows h hm).bind fun _ => ?_
      exact (readMembersWith_follows h hinner _ _ steps).bind fun vs => .pure _
    · exact (advance_follows h).bind fun _ => .pure _
    · exact (advance_follows h).bind fun _ => .pure _
    · exact (advance_follows h).bind fun _ => readSigned_follows h true
    · exact (advance_follows h).bind fun _ => readSigned_follows h false
    · exact readNamedWith_follows h hm hinner _ steps
    · exact .unexpected

/-- With room for one reading more than there are levels left, a reading never starts one beyond:
it goes on as reading under wider limits does, or is stopped. -/
theorem readWithin_follows [Library] (h : limits.Within limits' stops) (hm : limits'.depth ≤ m)
    (beyond : Nat → Reader (Option Constraint)) (room : Nat) (hroom : m < d + room) (steps : Nat) :
    Follows stops (State.Deep m d) (State.Deep m d)
      (readWithin ⟨bindings, limits⟩ beyond room steps)
      (readExpression ⟨bindings, limits'⟩ steps) := by
  induction room generalizing d steps with
  | zero =>
    -- no state is so deep
    intro s hs
    exact absurd hs.2 (Nat.not_le.mpr hroom)
  | succ room ih =>
    rw [readExpression_eq_with, readWithin]
    exact readExpressionWith_follows h hm (fun steps => ih (by omega) steps) steps

end Within

end HttpContract.Script
