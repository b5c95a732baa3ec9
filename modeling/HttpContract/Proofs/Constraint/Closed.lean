import HttpContract.Proofs.Constraint.Drawn
import HttpContract.Proofs.Constraint.Settled
import HttpContract.Proofs.Json.Reread

/-!
# Constraint — trees that mean the same everywhere

A tree without two-sided values and queries is `Closed`: it is the same in every context, and
scripts that call for neither mean only such trees (`closed_of_run`). What is drawn for it is a
value in which no object has a field twice, and a text if the tree describes texts only.
-/

namespace HttpContract.Constraint

open Calendar (Instant)
open Script (Bindings Builtin)

/-! ## Closed trees -/

/-- The trees that scripts mean without two-sided values and queries. -/
inductive Closed [Library] : Constraint → Prop where
  | constant {v : Json} (hscalar : v.isScalar = true) (hv : v.Scripted) : Closed (.constant v)
  | object {fields : List (String × Constraint)} (hkeys : (fields.map (·.1)).Nodup)
    (h : ∀ f ∈ fields, Closed f.2) : Closed (.object fields)
  | array {items : List Constraint} (h : ∀ c ∈ items, Closed c) : Closed (.array items)
  | matcher {m : Matcher} (h : m.Scripted) : Closed (.matcher m)

theorem inherited_closed [Library] : Inherited Closed where
  constant _ := .constant
  object _ h := by
    cases h with
    | object hkeys hfields => exact ⟨hkeys, hfields⟩
  array _ h := by
    cases h with
    | array hitems => exact hitems

theorem Closed.scripted [Library] {sides : Sidedness → Prop} {c : Constraint} (h : c.Closed) :
    c.Scripted sides := by
  induction h with
  | constant hscalar hv => exact .constant hscalar hv
  | object hkeys _ ih => exact .object hkeys ih
  | array _ ih => exact .array ih
  | matcher h => exact .matcher h

/-- A closed tree is the same in every context. -/
theorem Closed.evaluate_eq [Library] {c : Constraint} (h : c.Closed) (ctx : Context) :
    c.evaluate ctx = c := by
  induction h with
  | constant => rfl
  | object _ _ ih =>
    rw [evaluate, evaluateFields_eq_map, map_eq_self fun f hf => by rw [ih f hf]]
  | array _ ih =>
    rw [evaluate, evaluateItems_eq_map, map_eq_self ih]
  | matcher => rfl

/-- A function that makes neither two-sided values nor queries makes closed trees. -/
theorem closed_apply [Library] {b : Builtin} {arguments : List (Option Constraint)} {c : Constraint}
    (harguments : ∀ d, some d ∈ arguments → d.Closed) (hsides : b.sidedness? = none)
    (hquery : b ≠ .jsonpath) (h : b.apply arguments = .ok c) : c.Closed := by
  have hscripted : ∀ d, some d ∈ arguments → d.Scripted fun _ => True := fun d hd =>
    (harguments d hd).scripted
  rcases apply_cases hscripted h with ⟨m, rfl, hm⟩ | ⟨e, he, -⟩ | ⟨s, fields, hs, -⟩
  · exact .matcher hm
  · exact absurd he hquery
  · rw [hsides] at hs
    cases hs

/-- A script that calls for neither two-sided values nor queries exports a closed tree. -/
theorem closed_of_run [Library] {limits : Script.Limits} {bindings : Bindings} {source : String}
    {c : Constraint}
    (hcalls : ∀ name b, Script.Calls source name → bindings.lookup name = some b →
      b.sidedness? = none ∧ b ≠ .jsonpath)
    (h : Script.run limits bindings source = .ok c) : c.Closed := by
  refine run_kept (fun hlexical => ?_) h
  refine ⟨hlexical, fun v => .constant, fun fields => .object, fun items => .array, ?_⟩
  intro name b arguments d hcall hb harguments happly
  obtain ⟨hsides, hquery⟩ := hcalls name b hcall hb
  exact closed_apply harguments hsides hquery happly

/-! ## Drawn values -/

/-- What a matcher draws: a number, a choice or a text. -/
theorem Matcher.yields_shape [Library] (m : Matcher) (now : Instant) : (m.draw now).Yields fun v =>
    match m with
    | .number _ _ => ∃ n, v = .number n
    | .anyOf choices => v ∈ choices
    | _ => ∃ s, v = .string s := by
  have hany {α : Type} {draw : Sampler α} :
      (Attempt.sample draw : Generator α).Yields fun _ => True := fun _ _ _ => trivial
  cases m with
  | regex rule =>
    show (PatternRule.draw rule).Yields _
    unfold PatternRule.draw
    split
    · exact .fail
    · exact hany.bind fun s _ => .pure ⟨s, rfl⟩
  | number kind b =>
    cases kind with
    | integer =>
      show (Bounds.drawInteger b).Yields _
      unfold Bounds.drawInteger
      split
      · exact .fail
      · exact (Attempt.yields_between _ _).bind fun n _ => .pure ⟨_, rfl⟩
    | float =>
      show (Bounds.drawFloat b).Yields _
      unfold Bounds.drawFloat
      simp only
      split
      · exact .fail
      · refine hany.bind fun x _ => ?_
        split
        · exact .pure ⟨_, rfl⟩
        · exact .fail
  | date rule => exact (yields_drawDate rule now).mono fun v ⟨s, hv, _⟩ => ⟨s, hv⟩
  | text kind => exact (Generator.yields_textUntil _ _ _).mono fun v ⟨s, hv, _⟩ => ⟨s, hv⟩
  | fake kind => exact (Generator.yields_textUntil _ _ _).mono fun v ⟨s, hv, _⟩ => ⟨s, hv⟩
  | uuid4 => exact hany.bind fun s _ => .pure ⟨s, rfl⟩
  | anyOf choices => exact yields_drawChoice choices
  | notAnyOf choices => exact .fail

theorem Matcher.Scripted.yields_distinct [Library] {m : Matcher} (h : m.Scripted) (now : Instant) :
    (m.draw now).Yields Json.Distinct := by
  refine (m.yields_shape now).mono fun v hv => ?_
  cases m with
  | number kind b =>
    obtain ⟨n, rfl⟩ := hv
    exact .number n
  | anyOf choices => exact (h.arguments v hv).distinct
  | _ =>
    obtain ⟨s, rfl⟩ := hv
    exact .string s

/-- No object in a value that is drawn for a closed tree has a field twice. -/
theorem Closed.yields_distinct [Library] {c : Constraint} (h : c.Closed) (now : Instant) :
    (c.mock now).Yields Json.Distinct := by
  induction h with
  | constant _ hv => exact .pure hv.distinct
  | @object fields hkeys _ ih =>
    refine (yields_mockFields (R := fun _ => Json.Distinct) ih).bind fun vs hvs => ?_
    refine .pure (.object ?_ fun f hf => ?_)
    · rw [map_eq_of_forall₂ (fun _ _ hv => hv.1) hvs]
      exact hkeys
    · obtain ⟨g, -, hg⟩ := exists_of_forall₂_right hvs hf
      exact hg.2
  | array _ ih =>
    refine (yields_mockItems (R := fun _ => Json.Distinct) ih).bind fun vs hvs => ?_
    refine .pure (.array fun v hv => ?_)
    obtain ⟨c, -, hc⟩ := exists_of_forall₂_right hvs hv
    exact hc
  | matcher h => exact h.yields_distinct now

/-- A value that meets a tree and in which no object has a field twice. -/
def Fits (c : Constraint) (v : Json) : Prop := c.Met v ∧ v.Distinct

/-- What is drawn for a closed tree in a context fits the tree, unless a condition on whole numbers
has a bound greater than `2 ^ 52`. -/
theorem Closed.yields_fits [Library] (hlibrary : Library.DrawsMatching) {c : Constraint}
    (h : c.Closed) (hbounds : c.any hasLargeBound = false) (now : Instant) (ctx : Context) :
    (c.resolve now ctx).Yields c.Fits := by
  have hscripted : c.Scripted fun _ => True := h.scripted
  rw [resolve, h.evaluate_eq ctx]
  exact (hscripted.yields_mock hlibrary hbounds now).and (h.yields_distinct now)

/-! ## Texts and given values -/

/-- Whether a value is a text, or null where that is allowed. -/
def isText (nullable : Bool) : Json → Bool
  | .string _ => true
  | .null => nullable
  | _ => false

/-- Whether only texts are drawn for a tree, and null where that is allowed. -/
def drawsText (nullable : Bool) : Constraint → Bool
  | .constant v => isText nullable v
  | .matcher (.number _ _) => false
  | .matcher (.anyOf choices) => choices.all (isText nullable)
  | .matcher _ => true
  | _ => false

theorem yields_text [Library] {nullable : Bool} {c : Constraint} (h : c.drawsText nullable = true)
    (now : Instant) (ctx : Context) :
    (c.resolve now ctx).Yields fun v => isText nullable v = true := by
  cases c with
  | constant v => exact .pure h
  | matcher m =>
    refine (m.yields_shape now).mono fun v hv => ?_
    cases m with
    | number kind b => cases h
    | anyOf choices => exact List.all_eq_true.mp h v hv
    | _ =>
      obtain ⟨s, rfl⟩ := hv
      rfl
  | _ => cases h

/-- Whether a value is a number or a truth value. -/
def isPlainValue : Json → Bool
  | .number _ => true
  | .bool _ => true
  | _ => false

/-- Whether a tree describes numbers, truth values or objects only. -/
def isTextless : Constraint → Bool
  | .constant v => isPlainValue v
  | .object _ => true
  | .matcher (.number _ _) => true
  | .matcher (.anyOf choices) => choices.all isPlainValue
  | _ => false

/-- What arrives where only texts can be written: a text, a list or nothing. -/
def isWritten : Json → Bool
  | .string _ => true
  | .array _ => true
  | .null => true
  | _ => false

theorem agrees_written {v w : Json} (hv : isPlainValue v = true) (hw : isWritten w = true) :
    v.agrees w = false := by
  cases v <;> cases w <;>
    first | rfl | exact absurd hv Bool.false_ne_true | exact absurd hw Bool.false_ne_true

/-- Where only texts can be written, nothing meets a tree that describes none. -/
theorem compare_textless {c : Constraint} (h : c.isTextless = true) {w : Json}
    (hw : isWritten w = true) : c.compare w = .ok false := by
  cases c with
  | constant v => exact congrArg Except.ok (agrees_written h hw)
  | object fields => cases w <;> first | rfl | cases hw
  | matcher m =>
    refine congrArg Except.ok ?_
    cases m with
    | number kind b => cases w <;> first | rfl | cases hw
    | anyOf choices =>
      refine List.any_eq_false.mpr fun v hv => ?_
      rw [agrees_written (List.all_eq_true.mp h v hv) hw]
      exact Bool.false_ne_true
    | _ => cases h
  | _ => cases h

theorem mock_literalFields [Library] {now : Instant} {fields : List (String × Constraint)}
    {vs : List (String × Json)}
    (ih : ∀ f ∈ fields, ∀ v, f.2.literal? = some v → f.2.mock now = pure v)
    (h : literalFields? fields = some vs) : mockFields now fields = pure vs := by
  induction fields generalizing vs with
  | nil =>
    cases h
    rfl
  | cons f rest ihrest =>
    obtain ⟨k, c⟩ := f
    rw [literalFields?] at h
    split at h
    · rename_i v more hv hmore
      cases h
      rw [mockFields, ih (k, c) (by simp) v hv, pure_bind,
        ihrest (fun g hg => ih g (by simp [hg])) hmore, pure_bind]
    · cases h

theorem mock_literalItems [Library] {now : Instant} {items : List Constraint} {vs : List Json}
    (ih : ∀ c ∈ items, ∀ v, c.literal? = some v → c.mock now = pure v)
    (h : literalItems? items = some vs) : mockItems now items = pure vs := by
  induction items generalizing vs with
  | nil =>
    cases h
    rfl
  | cons c rest ihrest =>
    rw [literalItems?] at h
    split at h
    · rename_i v more hv hmore
      cases h
      rw [mockItems, ih c (by simp) v hv, pure_bind,
        ihrest (fun d hd => ih d (by simp [hd])) hmore, pure_bind]
    · cases h

/-- Nothing is drawn for a closed tree that describes one value. -/
theorem Closed.resolve_literal [Library] {c : Constraint} (h : c.Closed) {v : Json}
    (hv : c.literal? = some v) (now : Instant) (ctx : Context) : c.resolve now ctx = pure v := by
  rw [resolve, h.evaluate_eq ctx]
  induction h generalizing v with
  | constant =>
    cases hv
    rfl
  | object _ _ ih =>
    rw [literal?, Option.map_eq_some_iff] at hv
    obtain ⟨vs, hvs, rfl⟩ := hv
    rw [mock, mock_literalFields (fun f hf v => ih f hf) hvs, pure_bind]
  | array _ ih =>
    rw [literal?, Option.map_eq_some_iff] at hv
    obtain ⟨vs, hvs, rfl⟩ := hv
    rw [mock, mock_literalItems (fun c hc v => ih c hc) hvs, pure_bind]
  | matcher => cases hv

end HttpContract.Constraint
