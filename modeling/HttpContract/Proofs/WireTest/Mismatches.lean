import HttpContract.Proofs.Constraint.Evaluated

/-!
# WireTest — which mismatches are told

The parts of an answer that are examined are its status, the declared headers and the body, if one
is declared (`examined`). A part fails if every value that it may be taken for is rejected, and one
mismatch is told for each part that fails, in the order of the parts (`verify_eq_failing`).
-/

namespace HttpContract.WireTest

open Constraint (evaluated_evaluate)

variable {ctx : Context}

/-! ## What is examined -/

/-- A part of an answer, with what is expected of it. It arrives as one value; a body may be taken
for the JSON value in its text, too. -/
structure Examined where
  part : ResponsePart
  expected : Constraint
  arrived : Json
  parsed : Option Json := none

namespace Examined

/-- What the part may be taken for. -/
def values (x : Examined) : List Json := x.arrived :: x.parsed.toList

/-- Whether nothing that the part may be taken for is what is expected. -/
def fails (x : Examined) : Bool := x.values.all fun v => !fits x.expected v

/-- What is told of a part that fails. -/
def mismatch (x : Examined) : Mismatch :=
  .unmet x.part x.expected (x.parsed.getD x.arrived)

end Examined

/-- The parts of an answer that are examined, in their order: the status, the declared headers, null
for one that is missing, and the body, if one is declared. -/
def examined [Library] (rule : ResponseRule) (ctx : Context) (r : WireResponse) : List Examined :=
  ⟨.status, rule.status.evaluate ctx, Json.ofInt r.status, none⟩
    :: rule.headers.map (fun h => ⟨.header h.1, h.2.evaluate ctx,
      ((r.headers.header? h.1).map .string).getD .null, none⟩)
    ++ rule.body.toList.map fun c => ⟨.body, c.evaluate ctx, .string r.body, Json.parse? r.body⟩

/-! ## What is told -/

namespace Examined

/-- What is told of a part. -/
def report (x : Examined) : List Mismatch := if x.fails then [x.mismatch] else []

/-- A part fails if all that it may be taken for is rejected. -/
theorem fails_iff {x : Examined} (h : x.expected.Evaluated) :
    x.fails = true ↔ ∀ v ∈ x.values, x.expected.compare v = .ok false := by
  rw [fails, List.all_eq_true]
  refine forall₂_congr fun v _ => ?_
  obtain ⟨met, hmet⟩ := h.compare_ok v
  rw [fits, hmet]
  cases met <;> simp

theorem report_eq (x : Examined) :
    x.report = if x.values.any (fits x.expected) then [] else [x.mismatch] := by
  rw [report, fails, ← List.not_any_eq_all_not]
  cases x.values.any (fits x.expected) <;> rfl

/-- Of several parts, those that fail are told. -/
theorem flatMap_report (xs : List Examined) :
    xs.flatMap report = (xs.filter fails).map mismatch := by
  induction xs with
  | nil => rfl
  | cons x rest ih =>
    rw [List.flatMap_cons, ih, List.filter_cons, report]
    split <;> rfl

end Examined

theorem checkPart_eq_report [Library] (part : ResponsePart) (c : Constraint) (v : Json) :
    checkPart part (c.evaluate ctx) v = Examined.report ⟨part, c.evaluate ctx, v, none⟩ := by
  rw [(evaluated_evaluate ctx c).checkPart_eq, Examined.report_eq]
  simp [Examined.values, Examined.mismatch]

theorem checkBody_eq_report [Library] (c : Constraint) (text : String) :
    checkBody (c.evaluate ctx) text
      = Examined.report ⟨.body, c.evaluate ctx, .string text, Json.parse? text⟩ := by
  rw [(evaluated_evaluate ctx c).checkBody_eq, Examined.report_eq]
  -- a text that is no JSON is all that the body may be taken for
  cases Json.parse? text <;> simp [Examined.values, Examined.mismatch]

theorem checkDeclaredBody_eq_report [Library] (body : Option Constraint) (r : WireResponse) :
    checkDeclaredBody ctx body r = body.toList.flatMap fun c =>
      Examined.report ⟨.body, c.evaluate ctx, .string r.body, Json.parse? r.body⟩ := by
  cases body with
  | none => rfl
  | some c => simp [checkDeclaredBody, checkBody_eq_report]

/-- An answer is judged part by part. -/
theorem verify_eq_flatMap [Library] (rule : ResponseRule) (ctx : Context) (r : WireResponse) :
    verify rule ctx r = (examined rule ctx r).flatMap Examined.report := by
  rw [verify, checkStatus, checkHeaders, checkDeclaredBody_eq_report, checkPart_eq_report,
    examined, List.cons_append, List.flatMap_cons, List.flatMap_append, List.flatMap_map,
    List.flatMap_map, List.append_assoc]
  simp only [checkPart_eq_report]

theorem evaluated_examined [Library] {rule : ResponseRule} {r : WireResponse} {x : Examined}
    (h : x ∈ examined rule ctx r) : x.expected.Evaluated := by
  simp only [examined, List.cons_append, List.mem_cons, List.mem_append, List.mem_map] at h
  obtain rfl | ⟨header, -, rfl⟩ | ⟨body, -, rfl⟩ := h
  all_goals exact evaluated_evaluate ctx _

/-- What is wrong with an answer are exactly the parts that fail, in the order of the status, the
declared headers and the body. Each of them is told once, with what is expected of it and what has
arrived. A part fails if what is expected of it, as evaluated in the document of the request,
rejects it: the status as a number, of the headers with its name, whatever its case, the first, or
null if there is none, and the body both as a text and, if the text is JSON, as the value in it. All
of these can be compared, so it is never told that one cannot be, and no failure is left
unexplained. -/
theorem verify_eq_failing [Library] (rule : ResponseRule) (ctx : Context) (r : WireResponse) :
    verify rule ctx r = ((examined rule ctx r).filter Examined.fails).map Examined.mismatch
    ∧ (∀ x ∈ examined rule ctx r, (∀ v ∈ x.values, ∃ met, x.expected.compare v = .ok met)
      ∧ (x.fails = true ↔ ∀ v ∈ x.values, x.expected.compare v = .ok false))
    ∧ ∀ m ∈ verify rule ctx r,
      (∀ part cause, m ≠ .unchecked part cause) ∧ ∀ expected, m ≠ .unexplained expected := by
  refine ⟨?_, fun x hx => ?_, fun m hm => ?_⟩
  · exact (verify_eq_flatMap rule ctx r).trans (Examined.flatMap_report _)
  · have hnormal := evaluated_examined hx
    exact ⟨fun v _ => hnormal.compare_ok v, Examined.fails_iff hnormal⟩
  · obtain ⟨part, expected, actual, rfl⟩ := Constraint.verify_unmet rule ctx r m hm
    exact ⟨fun _ _ => Mismatch.noConfusion, fun _ => Mismatch.noConfusion⟩

end HttpContract.WireTest
