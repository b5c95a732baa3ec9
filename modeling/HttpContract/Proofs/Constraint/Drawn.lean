import HttpContract.Constraint.Compare
import HttpContract.Constraint.Mock
import HttpContract.Proofs.Constraint.DrawnNumber
import HttpContract.Proofs.Constraint.Scripted
import HttpContract.Proofs.Json.Agreement
import HttpContract.Proofs.Pattern.Whole

/-!
# Constraint — drawn values meet their constraints

A value that is drawn for a tree meets the tree (`Scripted.yields_mock`). Each matcher accepts what
it draws: some check a candidate before they give it, the others make only values of the right
shape. Objects are compared by their names, which are different in a tree that a script means.
-/

namespace HttpContract.Constraint

open Calendar (Instant)

/-! ## Identifiers -/

namespace Uuid

theorem isHexDigit_hexDigit (d : Nat) (h : d < 16) : isHexDigit (Json.hexDigit d) = true := by
  revert d
  decide

/-- The places of the digits of a byte. -/
def digitPlaces : Nat → List Place
  | 6 => [.version, .digit]
  | 8 => [.variant, .digit]
  | _ => [.digit, .digit]

/-- The places of a byte with the hyphen that may stand before it. -/
def bytePlaces (i : Nat) : List Place :=
  (if [4, 6, 8, 10].contains i then [.hyphen] else []) ++ digitPlaces i

theorem fitPlaces_digits (i b : Nat) (ps : List Place) (cs : List Char) :
    fitPlaces (digitPlaces i ++ ps) (byteDigits (mark i b) ++ cs) = fitPlaces ps cs := by
  have hdigit : ∀ n, Place.digit.admits (Json.hexDigit (n % 16)) = true := fun n =>
    isHexDigit_hexDigit _ (Nat.mod_lt _ (by decide))
  have hversion : Place.version.admits (Json.hexDigit 4) = true := by decide
  have hvariant : ∀ d < 4, Place.variant.admits (Json.hexDigit (8 + d)) = true := by decide
  unfold digitPlaces mark
  split
  · have hfirst : (64 + b % 16) / 16 % 16 = 4 := by omega
    simp only [byteDigits, List.cons_append, List.nil_append, fitPlaces, hfirst, hversion, hdigit,
      Bool.true_and]
  · have hfirst : (128 + b % 64) / 16 % 16 = 8 + b % 64 / 16 := by omega
    simp only [byteDigits, List.cons_append, List.nil_append, fitPlaces, hfirst,
      hvariant (b % 64 / 16) (by omega), hdigit, Bool.true_and]
  · simp only [byteDigits, List.cons_append, List.nil_append, fitPlaces, hdigit, Bool.true_and]

theorem fitPlaces_byte (i b : Nat) (ps : List Place) (bytes : List Nat) :
    fitPlaces (bytePlaces i ++ ps) (charsFrom i (b :: bytes))
      = fitPlaces ps (charsFrom (i + 1) bytes) := by
  simp only [bytePlaces, charsFrom]
  split
  · exact fitPlaces_digits i b ps _
  · exact fitPlaces_digits i b ps _

/-- Bytes make the digits of their places. -/
theorem fitPlaces_charsFrom (i : Nat) (bytes : List Nat) :
    fitPlaces ((List.range' i bytes.length).flatMap bytePlaces) (charsFrom i bytes) = true := by
  induction bytes generalizing i with
  | nil => rfl
  | cons b bytes ih =>
    rw [List.length_cons, List.range'_succ, List.flatMap_cons, fitPlaces_byte]
    exact ih (i + 1)

theorem places_eq : places = (List.range' 0 16).flatMap bytePlaces := by rfl

/-- A drawn identifier is one. -/
theorem yields_draw : draw.Yields fun s => isUuid s = true :=
  (Sampler.yields_times (Sampler.yields_below (by decide)) 16).bind fun bytes hbytes => .pure <| by
    rw [isUuid, String.toList_ofList, places_eq, ← hbytes.1]
    exact fitPlaces_charsFrom 0 bytes

end Uuid

/-! ## Matchers -/

theorem yields_drawDate (rule : DateRule) (now : Instant) :
    (rule.draw now).Yields fun v => ∃ s, v = .string s ∧ rule.acceptsText s = true := by
  have hwithin : ∀ lo hi attempts, (rule.drawWithin lo hi attempts).Yields fun v =>
      ∃ s, v = .string s ∧ rule.acceptsText s = true := by
    intro lo hi attempts
    induction attempts with
    | zero => exact .fail
    | succ attempts ih =>
      refine (Attempt.yields_between _ _).bind fun offset _ => ?_
      split
      · exact .breakOff
      split
      · exact .fail
      split
      case isTrue haccepts => exact .pure ⟨_, rfl, haccepts⟩
      case isFalse => exact ih
  unfold DateRule.draw
  split
  · exact .breakOff
  split
  · exact hwithin _ _ _
  · exact .fail

theorem yields_drawChoice (choices : List Json) :
    (Matcher.drawChoice choices).Yields (· ∈ choices) := by
  cases choices with
  | nil => exact .fail
  | cons first rest => exact Attempt.Yields.sample (Sampler.yields_choose (by simp))

/-- The condition of a pattern that its call makes is the one with its source. -/
theorem Matcher.Scripted.regex [Library] {rule : PatternRule} (h : (Matcher.regex rule).Scripted) :
    PatternRule.ofSource? rule.source = some rule := by
  have hmade : Script.Builtin.makeRegex (some (.ofJson (.string rule.source)))
      = .ok (.matcher (.regex rule)) := h.made
  simp only [Script.Builtin.makeRegex, bind_ok, Script.Builtin.stringArgument_string] at hmade
  obtain ⟨source, hsource, hmade⟩ := hmade
  cases hsource
  simp only at hmade
  split at hmade
  · rename_i r hr
    cases hmade
    exact hr
  · cases hmade

/-- A matcher accepts what it draws. -/
theorem Matcher.Scripted.yields_draw [Library] (hlibrary : Library.DrawsMatching) {m : Matcher}
    (h : m.Scripted) (hbounds : ∀ b, m = .number .integer b → b.IsModerate) (now : Instant) :
    (m.draw now).Yields fun v => m.accepts v = true := by
  cases m with
  | regex rule => exact PatternRule.yields_draw hlibrary h.regex
  | number kind b =>
    cases kind with
    | integer => exact Bounds.yields_drawInteger (hbounds b rfl)
    | float => exact Bounds.yields_drawFloat b
  | date rule =>
    refine (yields_drawDate rule now).mono ?_
    rintro _ ⟨s, rfl, hs⟩
    exact hs
  | text kind =>
    refine (Generator.yields_textUntil _ _ _).mono ?_
    rintro _ ⟨s, rfl, hs⟩
    exact hs
  | fake kind =>
    refine (Generator.yields_textUntil _ _ _).mono ?_
    rintro _ ⟨s, rfl, hs⟩
    exact hs
  | uuid4 => exact (Attempt.Yields.sample Uuid.yields_draw).bind fun s hs => .pure hs
  | anyOf choices =>
    refine (yields_drawChoice choices).mono fun v hv => ?_
    exact List.any_eq_true.mpr ⟨v, hv, (h.arguments v hv).distinct.agrees_self⟩
  | notAnyOf choices => exact .fail

/-! ## Trees -/

/-- Whether a tree is a condition on whole numbers with a bound greater than `2 ^ 52`. -/
def hasLargeBound : Constraint → Bool
  | .matcher (.number .integer b) => !decide b.IsModerate
  | _ => false

/-- A value with the property that it meets the constraint. -/
def Met (c : Constraint) (v : Json) : Prop := c.compare v = .ok true

theorem compareFields_met {fields : List (String × Constraint)} {actual : List (String × Json)}
    (h : ∀ f ∈ fields, f.2.Met ((actual.lookup f.1).getD .null)) :
    compareFields fields actual = .ok true := by
  induction fields with
  | nil => rfl
  | cons f rest ih =>
    obtain ⟨k, c⟩ := f
    have hc : c.compare ((actual.lookup k).getD .null) = .ok true := h (k, c) (by simp)
    rw [compareFields, hc]
    exact ih fun g hg => h g (by simp [hg])

theorem compareItems_met {items : List Constraint} {actual : List Json}
    (h : List.Forall₂ Met items actual) : compareItems items actual = .ok true := by
  induction h with
  | nil => rfl
  | cons hc _ ih =>
    rw [compareItems, List.head?_cons, Option.getD_some, hc]
    exact ih

section Parts

variable {R : Constraint → Json → Prop} {now : Instant}

theorem yields_mockFields [Library] {fields : List (String × Constraint)}
    (h : ∀ f ∈ fields, (f.2.mock now).Yields (R f.2)) :
    (mockFields now fields).Yields fun vs =>
      List.Forall₂ (fun f v => v.1 = f.1 ∧ R f.2 v.2) fields vs := by
  induction fields with
  | nil => exact .pure .nil
  | cons f rest ih =>
    obtain ⟨k, c⟩ := f
    exact (h (k, c) (by simp)).bind fun v hv =>
      (ih fun g hg => h g (by simp [hg])).bind fun more hmore => .pure (.cons ⟨rfl, hv⟩ hmore)

theorem yields_mockItems [Library] {items : List Constraint}
    (h : ∀ c ∈ items, (c.mock now).Yields (R c)) :
    (mockItems now items).Yields fun vs => List.Forall₂ R items vs := by
  induction items with
  | nil => exact .pure .nil
  | cons c rest ih =>
    exact (h c (by simp)).bind fun v hv =>
      (ih fun d hd => h d (by simp [hd])).bind fun more hmore => .pure (.cons hv hmore)

end Parts

theorem yields_mockBranch [Library] {now : Instant} {branch : Option Constraint}
    (h : ∀ c ∈ branch, (c.mock now).Yields c.Met) :
    (mockBranch now branch).Yields fun v => compareBranch branch v = .ok true := by
  cases branch with
  | none => exact .pure rfl
  | some c => exact h c rfl

/-- Values with the names of some fields are found by these names. -/
theorem met_of_forall₂ {fields : List (String × Constraint)} {vs : List (String × Json)}
    (hkeys : (fields.map (·.1)).Nodup)
    (h : List.Forall₂ (fun f v => v.1 = f.1 ∧ f.2.Met v.2) fields vs) :
    ∀ f ∈ fields, f.2.Met ((vs.lookup f.1).getD .null) := by
  have hsame := map_eq_of_forall₂ (fun _ _ hv => hv.1) h
  intro f hf
  obtain ⟨v, hv, hname, hmet⟩ := exists_of_forall₂_left h hf
  rw [← hname, lookup_of_nodup (hsame ▸ hkeys) hv]
  exact hmet

/-- A value that is drawn for a tree that a script means meets the tree. -/
theorem Scripted.yields_mock [Library] (hlibrary : Library.DrawsMatching)
    {sides : Sidedness → Prop} {c : Constraint} (h : c.Scripted sides)
    (hbounds : c.any hasLargeBound = false) (now : Instant) : (c.mock now).Yields c.Met := by
  induction h with
  | constant hscalar hv =>
    refine .pure ?_
    show Except.ok _ = _
    rw [hv.distinct.agrees_self]
  | object hkeys _ ih =>
    simp only [any, Bool.or_eq_false_iff] at hbounds
    refine (yields_mockFields fun f hf => ih f hf (anyField_false hbounds.2 f hf)).bind
      fun vs hvs => .pure ?_
    exact compareFields_met (met_of_forall₂ hkeys hvs)
  | array _ ih =>
    simp only [any, Bool.or_eq_false_iff] at hbounds
    refine (yields_mockItems fun c hc => ih c hc (anyItem_false hbounds.2 c hc)).bind
      fun vs hvs => .pure ?_
    exact compareItems_met hvs
  | @matcher m h =>
    refine (h.yields_draw hlibrary (fun b hb => ?_) now).mono fun v hv => ?_
    · subst hb
      simpa [any, hasLargeBound] using hbounds
    · show Except.ok _ = _
      rw [hv]
  | extraction => exact .fail
  | @dual s stub test _ _ _ ihstub ihtest =>
    simp only [any, Bool.or_eq_false_iff] at hbounds
    obtain ⟨⟨-, hstub⟩, htest⟩ := hbounds
    cases s with
    | both => exact yields_mockBranch fun c hc => ihstub c hc (anyBranch_false hstub c hc)
    | stubOnly => exact yields_mockBranch fun c hc => ihstub c hc (anyBranch_false hstub c hc)
    | testOnly => exact yields_mockBranch fun c hc => ihtest c hc (anyBranch_false htest c hc)

/-- What is drawn for a tree that a script means is accepted by the tree, at any time and from any
random numbers, unless a condition on whole numbers has a bound greater than `2 ^ 52`. Of the
library nothing is asked but that the texts that it draws for a pattern match it. -/
theorem run_mock_compare [Library] (hlibrary : Library.DrawsMatching) {limits : Script.Limits}
    {bindings : Script.Bindings} {source : String} {c : Constraint} {now : Instant} {draws : Draws}
    {v : Json} (hrun : Script.run limits bindings source = .ok c)
    (hbounds : c.any hasLargeBound = false) (hmock : ((c.mock now).run draws).1 = .ok v) :
    c.compare v = .ok true := by
  have hscripted : c.Scripted fun _ => True := scripted_of_run (fun _ _ _ _ _ _ => trivial) hrun
  exact hscripted.yields_mock hlibrary hbounds now draws v hmock

section Simple

attribute [local instance] Library.simple

theorem run_mock_compare_matchers : Library.DrawsMatching ∧ ∃ c v,
    Script.run {} Script.Bindings.standard
        "module.exports = [integer({gt: 0.5, lt: 9}), regex('^[0-9]+|a$'), uuid4(), anyOf(null)]"
        = .ok c
      ∧ ((c.mock ⟨0, 0⟩).run ⟨id, 0⟩).1 = .ok v ∧ c.compare v = .ok true := by
  obtain ⟨c, hrun, hchecks⟩ : ∃ c, Script.run {} Script.Bindings.standard
        "module.exports = [integer({gt: 0.5, lt: 9}), regex('^[0-9]+|a$'), uuid4(), anyOf(null)]"
        = .ok c
      ∧ (decide (c.any hasLargeBound = false)
        && ((c.mock ⟨0, 0⟩).run ⟨id, 0⟩).1.toOption.isSome) = true :=
    exists_ok_of_any (by decide +kernel)
  rw [Bool.and_eq_true, decide_eq_true_eq, Option.isSome_iff_exists] at hchecks
  obtain ⟨hbounds, v, hv⟩ := hchecks
  have hlibrary := Library.simple_drawsMatching
  have hmock := ok_of_toOption hv
  exact ⟨hlibrary, c, v, hrun, hmock, run_mock_compare hlibrary hrun hbounds hmock⟩

end Simple

end HttpContract.Constraint
