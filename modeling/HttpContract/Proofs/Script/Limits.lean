import HttpContract.Library.Simple
import HttpContract.Proofs.Constraint.Extent
import HttpContract.Proofs.Script.Nesting
import HttpContract.Proofs.Script.Run

/-!
# Script — limits

Limits never change what a script means: under narrower limits it has the same result, or exceeds
one of them (`run_of_within`). What it exports keeps within them (`extent_of_run`), and while it is
read no more than one reading of an expression for each level, and one, are started within one
another (`run_limited`).
-/

namespace HttpContract.Script

open Reader

variable {limits limits' : Limits} {stops : Error → Prop} {bindings : Bindings} {m d : Nat}

/-! ## Whole scripts side by side -/

section Scripts

variable (bindings)

theorem skipDirectives_follows (h : limits.Within limits' stops) (steps : Nat) :
    Follows stops (State.Deep m d) (State.Deep m d) (skipDirectives ⟨bindings, limits⟩ steps)
      (skipDirectives ⟨bindings, limits'⟩ steps) := by
  induction steps with
  | zero => exact .pure ()
  | succ steps ih =>
    have hget : Follows stops (State.Deep m d) (State.Deep m d) (get : Reader State) get :=
      fun s hs => .done s hs
    unfold skipDirectives
    refine hget.bind fun s => ?_
    dsimp only
    split
    · refine (advance_follows h).bind fun _ => Follows.peek.bind fun kind => ?_
      split
      · exact (advance_follows h).bind fun _ => ih
      -- only the current token is put back
      · refine .same fun t u t' ht hrun => ?_
        cases hrun
        exact ht
    · exact .pure ()

theorem skipAssignment_follows (h : limits.Within limits' stops) :
    Follows stops (State.Deep m d) (State.Deep m d) (skipAssignment ⟨bindings, limits⟩)
      (skipAssignment ⟨bindings, limits'⟩) := by
  refine Follows.peek.bind fun kind => ?_
  split
  · refine (advance_follows h).bind fun _ => (expect_follows h .dot).bind fun _ => ?_
    refine Follows.peek.bind fun kind => ?_
    dsimp only
    split
    · exact (advance_follows h).bind fun _ => expect_follows h .equals
    · exact fun s hs => .failed _
  · exact .pure ()

theorem skipSemicolons_follows (h : limits.Within limits' stops) (steps : Nat) :
    Follows stops (State.Deep m d) (State.Deep m d) (skipSemicolons ⟨bindings, limits⟩ steps)
      (skipSemicolons ⟨bindings, limits'⟩ steps) := by
  induction steps with
  | zero => exact .pure ()
  | succ steps ih =>
    unfold skipSemicolons
    refine Follows.peek.bind fun kind => ?_
    split
    · exact (advance_follows h).bind fun _ => ih
    · exact .pure ()

theorem readScriptWith_follows (h : limits.Within limits' stops)
    {expression expression' : Reader (Option Constraint)}
    (hexpression : Follows stops (State.Deep m d) (State.Deep m d) expression expression')
    (steps : Nat) :
    Follows stops (State.Deep m d) (State.Deep m d)
      (readScriptWith ⟨bindings, limits⟩ expression steps)
      (readScriptWith ⟨bindings, limits'⟩ expression' steps) := by
  unfold readScriptWith
  refine (skipDirectives_follows bindings h steps).bind fun _ => Follows.peek.bind fun kind => ?_
  dsimp only
  split
  · exact .stop_bind _ _ _
  refine (skipAssignment_follows bindings h).bind fun _ => hexpression.bind fun exported => ?_
  refine (skipSemicolons_follows bindings h steps).bind fun _ => Follows.peek.bind fun kind => ?_
  split
  · exact fun s hs => .failed _
  split
  · exact .pure _
  · exact .stop _

end Scripts

/-! ## Running -/

/-- Reading under narrower limits goes on as under wider ones, or is stopped. -/
theorem readExpression_follows [Library] (bindings : Bindings) (h : limits.Within limits' stops)
    (hm : limits'.depth ≤ m) (steps : Nat) :
    Follows stops (State.Deep m d) (State.Deep m d) (readExpression ⟨bindings, limits⟩ steps)
      (readExpression ⟨bindings, limits'⟩ steps) := by
  have hroom : Follows stops (State.Deep m d) (State.Deep m d)
      (readWithin ⟨bindings, limits⟩ (readExpression ⟨bindings, limits⟩) (m + 1) steps)
      (readExpression ⟨bindings, limits'⟩ steps) :=
    readWithin_follows h hm _ (m + 1) (by omega) steps
  rwa [readWithin_readExpression] at hroom

theorem State.initial_depth {tokens : Tokens} {s : State} (h : State.initial tokens = .ok s) :
    s.depth = 0 := by
  unfold State.initial at h
  split at h <;> cases h <;> rfl

/-- Under narrower limits a script has the result that it has under wider ones, or it exceeds a
limit that is narrower. -/
theorem run_of_within [Library] (htime : limits.noTime = limits'.noTime)
    (hle : ∀ r, limits.bound r ≤ limits'.bound r) (bindings : Bindings) (source : String) :
    run limits bindings source = run limits' bindings source
      ∨ ∃ r, limits.bound r < limits'.bound r
        ∧ run limits bindings source = .error (.limitExceeded r (limits.bound r)) := by
  let stops : Error → Prop := fun e =>
    ∃ r, limits.bound r < limits'.bound r ∧ e = .limitExceeded r (limits.bound r)
  have hwithin : limits.Within limits' stops := ⟨htime, hle, fun r hr => ⟨r, hr, rfl⟩⟩
  by_cases hsize : limits.size < source.utf8ByteSize
  · have hfirst : run limits bindings source = .error (.limitExceeded .size limits.size) := by
      rw [run, if_pos hsize]
    rcases Nat.lt_or_eq_of_le (hle .size) with hlt | heq
    · exact .inr ⟨.size, hlt, hfirst⟩
    · have hsame : limits.size = limits'.size := heq
      rw [hfirst, run, ← hsame, if_pos hsize]
      exact .inl rfl
  · have hsize' : ¬limits'.size < source.utf8ByteSize := fun h =>
      hsize (Nat.lt_of_le_of_lt (hle .size) h)
    simp only [run, if_neg hsize, if_neg hsize']
    cases hs : State.initial (Tokens.ofScript source.toList) with
    | error e => exact .inl rfl
    | ok s =>
      have hdeep : s.Deep limits'.depth 0 := ⟨State.initial_depth hs, Nat.zero_le _⟩
      have hfollows := readScriptWith_follows bindings hwithin
        (readExpression_follows bindings hwithin (Nat.le_refl _)
          (3 * (Tokens.ofScript source.toList).list.length + 8))
        (3 * (Tokens.ofScript source.toList).list.length + 8) s hdeep
      rw [← readScript_eq_with, ← readScript_eq_with] at hfollows
      rcases hfollows.eq_or_stopped with heq | ⟨e, ⟨r, hr, rfl⟩, he⟩
      · exact .inl (by simp only [heq])
      · exact .inr ⟨r, hr, by simp only [he]⟩

/-- What a script exports keeps within the limits. -/
theorem extent_of_run [Library] {source : String} {c : Constraint}
    (h : run limits bindings source = .ok c) :
    c.nesting ≤ limits.depth ∧ c.nodeCount ≤ limits.nodes := by
  obtain ⟨e, hv, -, hnodes, hdepth, -⟩ := run_sound h
  obtain ⟨hcount, hnesting⟩ := Constraint.value_extent e hv
  exact ⟨hnesting.trans hdepth, hcount.trans hnodes⟩

/-- The level that reading stands on is again what it was, once an expression is read. -/
theorem depth_of_readExpression [Library] {steps : Nat} {s s' : State} {v : Option Constraint}
    (h : (readExpression ⟨bindings, limits⟩ steps).run s = .ok (v, s')) :
    s'.depth = s.depth := by
  have hlevel : limits.depth ≤ max limits.depth s.depth := le_max_left ..
  have hfollows := readExpression_follows bindings (Limits.Within.refl limits) hlevel steps s
    ⟨rfl, le_max_right ..⟩
  rw [h] at hfollows
  cases hfollows with
  | done a hs => exact hs.1

/-- Reading from any level starts no more readings within one another than there are levels left,
and one. -/
theorem readWithin_eq [Library] (beyond : Nat → Reader (Option Constraint)) (steps : Nat)
    (s : State) :
    (readWithin ⟨bindings, limits⟩ beyond (limits.depth - s.depth + 1) steps).run s
      = (readExpression ⟨bindings, limits⟩ steps).run s := by
  have hroom : max limits.depth s.depth < s.depth + (limits.depth - s.depth + 1) := by omega
  exact (readWithin_follows (Limits.Within.refl limits) (le_max_left ..) beyond _ hroom steps s
    ⟨rfl, le_max_right ..⟩).eq

/-- Limits bound what a script uses up and never change what it means. Under narrower limits it has
the result that it has under wider ones, or it exceeds a limit that is narrower. What it exports is
nested no deeper than the limits allow and has no more nodes. While it is read no more readings of
an expression are started within one another than there are levels, and one: what would be started
beyond makes no difference, neither to a script nor to an expression on any level. Behind an
expression the level is what it was before. -/
theorem run_limited [Library] (htime : limits.noTime = limits'.noTime)
    (hle : ∀ r, limits.bound r ≤ limits'.bound r) (bindings : Bindings) (source : String) :
    (run limits bindings source = run limits' bindings source
      ∨ ∃ r, limits.bound r < limits'.bound r
        ∧ run limits bindings source = .error (.limitExceeded r (limits.bound r)))
    ∧ (∀ c, run limits bindings source = .ok c →
        c.nesting ≤ limits.depth ∧ c.nodeCount ≤ limits.nodes)
    ∧ (∀ beyond steps s, State.initial (Tokens.ofScript source.toList) = .ok s →
        (readScriptWith ⟨bindings, limits⟩
            (readWithin ⟨bindings, limits⟩ beyond (limits.depth + 1) steps) steps).run s
          = (readScript ⟨bindings, limits⟩ steps).run s)
    ∧ (∀ beyond steps s,
        (readWithin ⟨bindings, limits⟩ beyond (limits.depth - s.depth + 1) steps).run s
          = (readExpression ⟨bindings, limits⟩ steps).run s)
    ∧ ∀ steps s v s', (readExpression ⟨bindings, limits⟩ steps).run s = .ok (v, s') →
        s'.depth = s.depth := by
  refine ⟨run_of_within htime hle bindings source, fun c => extent_of_run, ?_, readWithin_eq,
    fun steps s v s' => depth_of_readExpression⟩
  intro beyond steps s hs
  have hroom : Follows (fun _ => False) (State.Deep limits.depth 0) (State.Deep limits.depth 0)
      (readWithin ⟨bindings, limits⟩ beyond (limits.depth + 1) steps)
      (readExpression ⟨bindings, limits⟩ steps) :=
    readWithin_follows (Limits.Within.refl limits) (Nat.le_refl _) beyond _ (by omega) steps
  exact (readScriptWith_follows bindings (Limits.Within.refl limits) hroom steps s
    ⟨State.initial_depth hs, Nat.zero_le _⟩).eq

section Simple

attribute [local instance] Library.simple

theorem run_limited_nested : ∃ c,
    run ⟨64, 3, 10, false⟩ Bindings.standard "[value({stub: 1})]" = .ok c
      ∧ run {} Bindings.standard "[value({stub: 1})]" = .ok c
      ∧ c.nesting ≤ 3 ∧ c.nodeCount ≤ 10 := by
  have hle : ∀ r, (⟨64, 3, 10, false⟩ : Limits).bound r ≤ ({} : Limits).bound r := by
    intro r
    cases r <;> decide
  have htime : (⟨64, 3, 10, false⟩ : Limits).noTime = ({} : Limits).noTime := rfl
  obtain ⟨hsame, hextent, -⟩ := run_limited htime hle Bindings.standard "[value({stub: 1})]"
  obtain ⟨c, hc, -⟩ : ∃ c,
      run ⟨64, 3, 10, false⟩ Bindings.standard "[value({stub: 1})]" = .ok c ∧ true = true :=
    exists_ok_of_any (p := fun _ => true) (by decide +kernel)
  refine ⟨c, hc, ?_, hextent c hc⟩
  rcases hsame with heq | ⟨r, -, he⟩
  · rw [← heq, hc]
  · rw [hc] at he
    cases he

end Simple

end HttpContract.Script
