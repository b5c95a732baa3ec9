import HttpContract.Contract.Match
import HttpContract.Proofs.Constraint.Settled
import HttpContract.Proofs.Random
import HttpContract.WireTest.Verify

/-!
# Constraint — evaluated trees

What a tree is evaluated to is `Evaluated`: it has neither queries nor two-sided values, however
deep. Such a tree is the same in every context, comparing it gives an answer for every value, and
generating a value for it is only ever refused because of values that are excluded. So the reader of
requests and the judge of answers, who both evaluate before they compare, never meet a tree that
they cannot compare (`evaluate_normal`).
-/

namespace HttpContract.Constraint

open Calendar (Instant)
open WireTest (Mismatch checkPart checkBody checkDeclaredBody fits verify)

/-- Whether a constraint is one that evaluation replaces: a query or a two-sided value. -/
def isReplaced : Constraint → Bool
  | .extraction _ => true
  | .dual _ _ _ => true
  | _ => false

/-- Whether a constraint only excludes values. -/
def isExclusion : Constraint → Bool
  | .matcher (.notAnyOf _) => true
  | _ => false

/-- The trees without queries and two-sided values. -/
inductive Evaluated : Constraint → Prop where
  | constant (v : Json) : Evaluated (.constant v)
  | object {fields : List (String × Constraint)} (h : ∀ f ∈ fields, Evaluated f.2) :
    Evaluated (.object fields)
  | array {items : List Constraint} (h : ∀ c ∈ items, Evaluated c) : Evaluated (.array items)
  | matcher (m : Matcher) : Evaluated (.matcher m)

/-! ## Evaluation reaches them -/

mutual

/-- A tree in a context has neither queries nor two-sided values. -/
theorem evaluated_evaluate [Library] (ctx : Context) (c : Constraint) :
    (c.evaluate ctx).Evaluated := by
  match c with
  | .constant v => exact .constant v
  | .object fields => exact .object (evaluated_evaluateFields ctx fields)
  | .array items => exact .array (evaluated_evaluateItems ctx items)
  | .matcher m => exact .matcher m
  -- what a query selects is given, whatever it is
  | .extraction e => exact .constant _
  | .dual .both stub test =>
    rw [evaluate]
    cases ctx.mode with
    | stub => exact evaluated_evaluateBranch ctx stub
    | test => exact evaluated_evaluateBranch ctx test
  | .dual .stubOnly stub _ => exact evaluated_evaluateBranch ctx stub
  | .dual .testOnly _ test => exact evaluated_evaluateBranch ctx test
termination_by structural c

theorem evaluated_evaluateFields [Library] (ctx : Context) (fields : List (String × Constraint)) :
    ∀ f ∈ evaluateFields ctx fields, f.2.Evaluated := by
  match fields with
  | [] => exact fun f hf => nomatch hf
  | (k, c) :: rest =>
    intro f hf
    rcases List.mem_cons.mp hf with rfl | hf
    · exact evaluated_evaluate ctx c
    · exact evaluated_evaluateFields ctx rest f hf
termination_by structural fields

theorem evaluated_evaluateItems [Library] (ctx : Context) (items : List Constraint) :
    ∀ c ∈ evaluateItems ctx items, c.Evaluated := by
  match items with
  | [] => exact fun c hc => nomatch hc
  | c :: rest =>
    intro d hd
    rcases List.mem_cons.mp hd with rfl | hd
    · exact evaluated_evaluate ctx c
    · exact evaluated_evaluateItems ctx rest d hd
termination_by structural items

theorem evaluated_evaluateBranch [Library] (ctx : Context) (branch : Option Constraint) :
    (evaluateBranch ctx branch).Evaluated := by
  match branch with
  | none => exact .constant .null
  | some c => exact evaluated_evaluate ctx c
termination_by structural branch

end

/-! ## What they are -/

theorem anyField_eq_false {test : Constraint → Bool} {fields : List (String × Constraint)}
    (h : ∀ f ∈ fields, f.2.any test = false) : anyField test fields = false := by
  induction fields with
  | nil => rfl
  | cons f rest ih =>
    rw [anyField, h f (by simp), Bool.false_or]
    exact ih fun g hg => h g (by simp [hg])

theorem anyItem_eq_false {test : Constraint → Bool} {items : List Constraint}
    (h : ∀ c ∈ items, c.any test = false) : anyItem test items = false := by
  induction items with
  | nil => rfl
  | cons c rest ih =>
    rw [anyItem, h c (by simp), Bool.false_or]
    exact ih fun d hd => h d (by simp [hd])

/-- Nothing is left to be replaced. -/
theorem Evaluated.any_isReplaced {c : Constraint} (h : c.Evaluated) :
    c.any isReplaced = false := by
  induction h with
  | constant => rfl
  | object _ ih =>
    rw [any, anyField_eq_false ih]
    rfl
  | array _ ih =>
    rw [any, anyItem_eq_false ih]
    rfl
  | matcher => rfl

/-- An evaluated tree is the same in every context. -/
theorem Evaluated.evaluate_eq [Library] {c : Constraint} (h : c.Evaluated) (ctx : Context) :
    c.evaluate ctx = c := by
  induction h with
  | constant => rfl
  | object _ ih => rw [evaluate, evaluateFields_eq_map, map_eq_self fun f hf => by rw [ih f hf]]
  | array _ ih => rw [evaluate, evaluateItems_eq_map, map_eq_self ih]
  | matcher => rfl

/-! ## Comparing -/

theorem compareFields_ok {fields : List (String × Constraint)}
    (h : ∀ f ∈ fields, ∀ v, ∃ met, f.2.compare v = .ok met) (actual : List (String × Json)) :
    ∃ met, compareFields fields actual = .ok met := by
  induction fields with
  | nil => exact ⟨true, rfl⟩
  | cons f rest ih =>
    obtain ⟨k, c⟩ := f
    obtain ⟨met, hmet⟩ := h (k, c) (by simp) ((actual.lookup k).getD .null)
    rw [compareFields, hmet]
    cases met with
    | false => exact ⟨false, rfl⟩
    | true => exact ih fun g hg => h g (by simp [hg])

theorem compareItems_ok {items : List Constraint}
    (h : ∀ c ∈ items, ∀ v, ∃ met, c.compare v = .ok met) (actual : List Json) :
    ∃ met, compareItems items actual = .ok met := by
  induction items generalizing actual with
  | nil => exact ⟨true, rfl⟩
  | cons c rest ih =>
    obtain ⟨met, hmet⟩ := h c (by simp) (actual.head?.getD .null)
    rw [compareItems, hmet]
    cases met with
    | false => exact ⟨false, rfl⟩
    | true => exact ih (fun d hd => h d (by simp [hd])) actual.tail

/-- Every value meets an evaluated tree or does not. -/
theorem Evaluated.compare_ok {c : Constraint} (h : c.Evaluated) (v : Json) :
    ∃ met, c.compare v = .ok met := by
  induction h generalizing v with
  | constant w => exact ⟨w.agrees v, rfl⟩
  | object _ ih =>
    cases v with
    | object actual => exact compareFields_ok ih actual
    | _ => exact ⟨false, rfl⟩
  | array _ ih =>
    cases v with
    | array actual => exact compareItems_ok ih actual
    | _ => exact ⟨false, rfl⟩
  | matcher m => exact ⟨m.accepts v, rfl⟩

/-- A part of an answer is checked against an evaluated tree by comparing alone. -/
theorem Evaluated.checkPart_eq {c : Constraint} (h : c.Evaluated) (part : ResponsePart)
    (v : Json) : checkPart part c v = if fits c v then [] else [.unmet part c v] := by
  obtain ⟨met, hmet⟩ := h.compare_ok v
  unfold checkPart fits
  rw [hmet]
  cases met <;> rfl

/-- A mismatch that says what was expected and what was found. -/
def IsUnmet (m : Mismatch) : Prop := ∃ part expected actual, m = .unmet part expected actual

theorem Evaluated.checkPart_unmet {c : Constraint} (h : c.Evaluated) (part : ResponsePart)
    (v : Json) : ∀ m ∈ checkPart part c v, IsUnmet m := by
  intro m hm
  rw [h.checkPart_eq] at hm
  split at hm
  · cases hm
  · rw [List.mem_singleton] at hm
    exact ⟨part, c, v, hm⟩

/-- A body is checked against an evaluated tree by comparing its text and the value in it alone. -/
theorem Evaluated.checkBody_eq {c : Constraint} (h : c.Evaluated) (text : String) :
    checkBody c text
      = if fits c (.string text) || ((Json.parse? text).map (fits c)).getD false then []
        else [.unmet .body c ((Json.parse? text).getD (.string text))] := by
  unfold checkBody
  simp only
  split
  · rfl
  · rename_i hfits
    -- what is compared in the end is the text or its value, and neither of them fits
    have hactual : fits c ((Json.parse? text).getD (.string text)) = false := by
      rw [Bool.not_eq_true, Bool.or_eq_false_iff] at hfits
      cases hparsed : Json.parse? text with
      | none => exact hfits.1
      | some v => simpa [hparsed] using hfits.2
    rw [h.checkPart_eq, hactual]
    rfl

theorem Evaluated.checkBody_unmet {c : Constraint} (h : c.Evaluated) (text : String) :
    ∀ m ∈ checkBody c text, IsUnmet m := by
  intro m hm
  rw [h.checkBody_eq] at hm
  split at hm
  · cases hm
  · rw [List.mem_singleton] at hm
    exact ⟨_, _, _, hm⟩

/-- All that is wrong with an answer is told by comparing. -/
theorem verify_unmet [Library] (rule : ResponseRule) (ctx : Context) (r : WireResponse) :
    ∀ m ∈ verify rule ctx r, IsUnmet m := by
  intro m hm
  rw [verify, List.mem_append, List.mem_append] at hm
  rcases hm with (hstatus | hheaders) | hbody
  · exact (evaluated_evaluate ctx rule.status).checkPart_unmet .status _ m hstatus
  · obtain ⟨header, -, hm⟩ := List.mem_flatMap.mp hheaders
    exact (evaluated_evaluate ctx header.2).checkPart_unmet _ _ m hm
  · unfold checkDeclaredBody at hbody
    split at hbody
    · cases hbody
    · exact (evaluated_evaluate ctx _).checkBody_unmet r.body m hbody

/-! ## Generating -/

/-- A failure because the constraint has no such operation. -/
def IsRefusal (e : Error) : Prop := e.kind = .unsupported

theorem textUntil_refusal (kind : String) (draw : Sampler String) (accept : String → Bool) :
    (Generator.textUntil kind draw accept).Fails fun e => ¬IsRefusal e := by
  refine Attempt.Fails.sample.bind fun candidate => ?_
  cases candidate with
  | none => exact .fail (by simp [IsRefusal, Error.kind])
  | some s => exact .pure

theorem drawInteger_refusal (b : Bounds) : b.drawInteger.Fails fun e => ¬IsRefusal e := by
  unfold Bounds.drawInteger
  split
  · rename_i e he
    unfold Bounds.integerRange at he
    simp only at he
    split at he
    · cases he
      exact .fail (by simp [IsRefusal, Error.kind])
    · cases he
  · exact (Attempt.Fails.between _ _).bind fun n => .pure

theorem drawFloat_refusal [Library] (b : Bounds) : b.drawFloat.Fails fun e => ¬IsRefusal e := by
  unfold Bounds.drawFloat
  simp only
  split
  · exact .fail (by simp [IsRefusal, Error.kind])
  · refine Attempt.Fails.sample.bind fun x => ?_
    split
    · exact .pure
    · exact .fail (by simp [IsRefusal, Error.kind])

theorem write_refusal {r : DateRule} {t : Instant} {e : Error} (h : r.write t = .error e) :
    ¬IsRefusal e := by
  unfold DateRule.write at h
  split at h
  · cases h
  · split at h
    · cases h
    · cases h
      simp [IsRefusal, Error.kind]

theorem drawDate_refusal (r : DateRule) (now : Instant) :
    (r.draw now).Fails fun e => ¬IsRefusal e := by
  have hwithin : ∀ lo hi attempts, (r.drawWithin lo hi attempts).Fails fun e => ¬IsRefusal e := by
    intro lo hi attempts
    induction attempts with
    | zero => exact .fail (by simp [IsRefusal, Error.kind])
    | succ n ih =>
      refine (Attempt.Fails.between _ _).bind fun offset => ?_
      split
      · exact .breakOff
      · split
        · rename_i e he
          exact .fail (write_refusal he)
        · split
          · exact .pure
          · exact ih
  unfold DateRule.draw
  split
  · exact .breakOff
  · split
    · exact hwithin _ _ _
    · exact .fail (by simp [IsRefusal, Error.kind])

/-- A matcher that draws refuses only if it excludes values. -/
theorem Matcher.draw_refusal [Library] (m : Matcher) (now : Instant) :
    (m.draw now).Fails fun e => IsRefusal e → isExclusion (.matcher m) = true := by
  have hnever : ∀ {g : Generator Json}, (g.Fails fun e => ¬IsRefusal e) →
      g.Fails fun e => IsRefusal e → isExclusion (.matcher m) = true := fun h =>
    h.mono fun e he hrefusal => absurd hrefusal he
  cases m with
  | regex rule =>
    refine hnever ?_
    show (PatternRule.draw rule).Fails _
    unfold PatternRule.draw
    split
    · exact .fail (by simp [IsRefusal, Error.kind])
    · exact Attempt.Fails.sample.bind fun s => .pure
  | number kind b =>
    cases kind with
    | integer => exact hnever (drawInteger_refusal b)
    | float => exact hnever (drawFloat_refusal b)
  | date rule => exact hnever (drawDate_refusal rule now)
  | text kind => exact hnever (textUntil_refusal _ _ _)
  | fake kind => exact hnever (textUntil_refusal _ _ _)
  | uuid4 => exact hnever (Attempt.Fails.sample.bind fun s => .pure)
  | anyOf choices =>
    refine hnever ?_
    show (Matcher.drawChoice choices).Fails _
    unfold Matcher.drawChoice
    split
    · exact .fail (by simp [IsRefusal, Error.kind])
    · exact .sample
  | notAnyOf choices => exact .fail fun _ => rfl

theorem any_of_field {test : Constraint → Bool} {fields : List (String × Constraint)}
    {f : String × Constraint} (hf : f ∈ fields) (h : f.2.any test = true) :
    (object fields).any test = true := by
  rw [any, Bool.or_eq_true]
  refine .inr ?_
  by_contra hnone
  rw [Bool.not_eq_true] at hnone
  rw [anyField_false hnone f hf] at h
  cases h

theorem any_of_item {test : Constraint → Bool} {items : List Constraint} {c : Constraint}
    (hc : c ∈ items) (h : c.any test = true) : (array items).any test = true := by
  rw [any, Bool.or_eq_true]
  refine .inr ?_
  by_contra hnone
  rw [Bool.not_eq_true] at hnone
  rw [anyItem_false hnone c hc] at h
  cases h

theorem mockFields_fails [Library] {E : Error → Prop} {now : Instant}
    {fields : List (String × Constraint)}
    (h : ∀ f ∈ fields, (f.2.mock now).Fails E) : (mockFields now fields).Fails E := by
  induction fields with
  | nil => exact .pure
  | cons f rest ih =>
    refine (h f (by simp)).bind fun v => ?_
    exact (ih fun g hg => h g (by simp [hg])).bind fun more => .pure

theorem mockItems_fails [Library] {E : Error → Prop} {now : Instant} {items : List Constraint}
    (h : ∀ c ∈ items, (c.mock now).Fails E) : (mockItems now items).Fails E := by
  induction items with
  | nil => exact .pure
  | cons c rest ih =>
    refine (h c (by simp)).bind fun v => ?_
    exact (ih fun d hd => h d (by simp [hd])).bind fun more => .pure

/-- A value for an evaluated tree is refused only if the tree excludes values. -/
theorem Evaluated.mock_refusal [Library] {c : Constraint} (h : c.Evaluated) (now : Instant) :
    (c.mock now).Fails fun e => IsRefusal e → c.any isExclusion = true := by
  induction h with
  | constant v => exact .pure
  | object _ ih =>
    refine (mockFields_fails fun f hf => ?_).bind fun vs => .pure
    exact (ih f hf).mono fun e he hrefusal => any_of_field hf (he hrefusal)
  | array _ ih =>
    refine (mockItems_fails fun c hc => ?_).bind fun vs => .pure
    exact (ih c hc).mono fun e he hrefusal => any_of_item hc (he hrefusal)
  | matcher m => exact m.draw_refusal now

/-! ## The normal form -/

/-- Evaluation reaches a normal form. Nothing in it is a query or a two-sided value, and evaluating
it again, in any context, changes nothing. Comparing it with a value always gives an answer, which
is the one that requests and answers are judged by: nothing that is wrong with an answer is that it
could not be compared. A value for it is refused only if it excludes values. -/
theorem evaluate_normal [Library] (c : Constraint) (ctx : Context) :
    (c.evaluate ctx).any isReplaced = false
      ∧ (∀ ctx', (c.evaluate ctx).evaluate ctx' = c.evaluate ctx)
      ∧ (∀ v, ∃ met, (c.evaluate ctx).compare v = .ok met
        ∧ Contract.meets ctx c v = met
        ∧ ∀ part, checkPart part (c.evaluate ctx) v
            = if met then [] else [.unmet part (c.evaluate ctx) v])
      ∧ (∀ rule r, ∀ m ∈ verify rule ctx r, IsUnmet m)
      ∧ ∀ now draws kind capability,
          (((c.evaluate ctx).mock now).run draws).1
            = .error (.reason (.unsupported kind capability)) →
          (c.evaluate ctx).any isExclusion = true := by
  have hnormal := evaluated_evaluate ctx c
  refine ⟨hnormal.any_isReplaced, hnormal.evaluate_eq, ?_, ?_, ?_⟩
  · intro v
    obtain ⟨met, hmet⟩ := hnormal.compare_ok v
    refine ⟨met, hmet, ?_, fun part => ?_⟩
    · rw [Contract.meets, hmet]
    · rw [hnormal.checkPart_eq, fits, hmet]
  · exact fun rule r => verify_unmet rule ctx r
  · intro now draws kind capability herror
    exact hnormal.mock_refusal now draws _ herror _ rfl rfl

end HttpContract.Constraint
