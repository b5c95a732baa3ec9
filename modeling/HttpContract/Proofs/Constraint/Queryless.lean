import HttpContract.Library.Simple
import HttpContract.Constraint.Compare
import HttpContract.Constraint.Mock
import HttpContract.Proofs.Constraint.Scripted

/-!
# Constraint — trees without queries

A tree without queries is evaluated alike in all contexts of a mode, whatever their documents are
(`evaluate_document`). Evaluating it for the stub only takes the sides of two-sided values that
comparing and generating take anyway, so that values meet and are drawn for the evaluated tree as
for the tree itself (`unevaluated_agrees`).
-/

namespace HttpContract.Constraint

open Calendar (Instant)

/-- Whether a constraint is a query. -/
def isQuery : Constraint → Bool
  | .extraction _ => true
  | _ => false

/-! ## Documents -/

mutual

/-- Only queries look at the document. -/
theorem evaluate_document [Library] {c : Constraint} (h : c.any isQuery = false) (a b : Json)
    (m : Mode) :
    c.evaluate ⟨a, m⟩ = c.evaluate ⟨b, m⟩ := by
  match c with
  | .constant _ => rfl
  | .object fields => exact congrArg object (evaluateFields_document h a b m)
  | .array items => exact congrArg array (evaluateItems_document h a b m)
  | .matcher _ => rfl
  | .extraction _ => cases h
  | .dual s stub test =>
    simp only [any, isQuery, Bool.false_or, Bool.or_eq_false_iff] at h
    cases s with
    | both =>
      cases m with
      | stub => exact evaluateBranch_document h.1 a b .stub
      | test => exact evaluateBranch_document h.2 a b .test
    | stubOnly => exact evaluateBranch_document h.1 a b m
    | testOnly => exact evaluateBranch_document h.2 a b m
termination_by structural c

theorem evaluateFields_document [Library] {fields : List (String × Constraint)}
    (h : anyField isQuery fields = false) (a b : Json) (m : Mode) :
    evaluateFields ⟨a, m⟩ fields = evaluateFields ⟨b, m⟩ fields := by
  match fields with
  | [] => rfl
  | (k, c) :: rest =>
    rw [anyField, Bool.or_eq_false_iff] at h
    rw [evaluateFields, evaluateFields, evaluate_document h.1 a b m,
      evaluateFields_document h.2 a b m]
termination_by structural fields

theorem evaluateItems_document [Library] {items : List Constraint}
    (h : anyItem isQuery items = false) (a b : Json) (m : Mode) :
    evaluateItems ⟨a, m⟩ items = evaluateItems ⟨b, m⟩ items := by
  match items with
  | [] => rfl
  | c :: rest =>
    rw [anyItem, Bool.or_eq_false_iff] at h
    rw [evaluateItems, evaluateItems, evaluate_document h.1 a b m,
      evaluateItems_document h.2 a b m]
termination_by structural items

theorem evaluateBranch_document [Library] {branch : Option Constraint}
    (h : anyBranch isQuery branch = false) (a b : Json) (m : Mode) :
    evaluateBranch ⟨a, m⟩ branch = evaluateBranch ⟨b, m⟩ branch := by
  match branch with
  | none => rfl
  | some c => exact evaluate_document h a b m
termination_by structural branch

end

/-! ## Comparing and generating -/

/-- Trees that the same values meet, with the same failures, and that values are drawn for in the
same way. -/
structure Interchangeable [Library] (c d : Constraint) : Prop where
  compare : ∀ v, c.compare v = d.compare v
  mock : ∀ now, c.mock now = d.mock now

namespace Interchangeable

theorem refl [Library] (c : Constraint) : Interchangeable c c := ⟨fun _ => rfl, fun _ => rfl⟩

theorem compareFields_eq [Library] {fields fields' : List (String × Constraint)}
    (h : List.Forall₂ (fun f g => f.1 = g.1 ∧ Interchangeable f.2 g.2) fields fields')
    (actual : List (String × Json)) :
    compareFields fields actual = compareFields fields' actual := by
  induction h with
  | nil => rfl
  | @cons f g _ _ hfg _ ih =>
    obtain ⟨k, c⟩ := f
    obtain ⟨l, d⟩ := g
    obtain ⟨rfl, hcd⟩ := hfg
    rw [compareFields, compareFields, hcd.compare, ih]

theorem mockFields_eq [Library] {fields fields' : List (String × Constraint)}
    (h : List.Forall₂ (fun f g => f.1 = g.1 ∧ Interchangeable f.2 g.2) fields fields')
    (now : Instant) : mockFields now fields = mockFields now fields' := by
  induction h with
  | nil => rfl
  | @cons f g _ _ hfg _ ih =>
    obtain ⟨k, c⟩ := f
    obtain ⟨l, d⟩ := g
    obtain ⟨rfl, hcd⟩ := hfg
    rw [mockFields, mockFields, hcd.mock, ih]

/-- Fields may be replaced by interchangeable ones. -/
theorem object [Library] {fields fields' : List (String × Constraint)}
    (h : List.Forall₂ (fun f g => f.1 = g.1 ∧ Interchangeable f.2 g.2) fields fields') :
    Interchangeable (.object fields) (.object fields') where
  compare v := by
    cases v with
    | object actual => exact compareFields_eq h actual
    | _ => rfl
  mock now := by rw [Constraint.mock, Constraint.mock, mockFields_eq h]

theorem compareItems_eq [Library] {items items' : List Constraint}
    (h : List.Forall₂ Interchangeable items items') (actual : List Json) :
    compareItems items actual = compareItems items' actual := by
  induction h generalizing actual with
  | nil => rfl
  | cons hcd _ ih => rw [compareItems, compareItems, hcd.compare, ih]

theorem mockItems_eq [Library] {items items' : List Constraint}
    (h : List.Forall₂ Interchangeable items items') (now : Instant) :
    mockItems now items = mockItems now items' := by
  induction h with
  | nil => rfl
  | cons hcd _ ih => rw [mockItems, mockItems, hcd.mock, ih]

/-- Items may be replaced by interchangeable ones. -/
theorem array [Library] {items items' : List Constraint}
    (h : List.Forall₂ Interchangeable items items') :
    Interchangeable (.array items) (.array items') where
  compare v := by
    cases v with
    | array actual => exact compareItems_eq h actual
    | _ => rfl
  mock now := by rw [Constraint.mock, Constraint.mock, mockItems_eq h]

/-- The side of a two-sided value that a stub takes stands for the value; null stands for a missing
one. -/
theorem dual [Library] (s : Sidedness) (stub test : Option Constraint) :
    Interchangeable ((selected s .stub stub test).getD (.constant .null)) (.dual s stub test) := by
  have hnull (v : Json) : Json.agrees .null v = v.isNull := by cases v <;> rfl
  have hside (side : Option Constraint) : (∀ v, (side.getD (.constant .null)).compare v
        = compareBranch side v)
      ∧ ∀ now, (side.getD (.constant .null)).mock now = mockBranch now side := by
    cases side with
    | none => exact ⟨fun v => congrArg Except.ok (hnull v), fun now => rfl⟩
    | some c => exact ⟨fun v => rfl, fun now => rfl⟩
  cases s with
  | both => exact ⟨(hside stub).1, (hside stub).2⟩
  | stubOnly => exact ⟨(hside stub).1, (hside stub).2⟩
  | testOnly => exact ⟨(hside test).1, (hside test).2⟩

theorem trans [Library] {c d e : Constraint} (h : Interchangeable c d) (h' : Interchangeable d e) :
    Interchangeable c e :=
  ⟨fun v => (h.compare v).trans (h'.compare v), fun now => (h.mock now).trans (h'.mock now)⟩

end Interchangeable

mutual

/-- What a stub evaluates a tree without queries to stands for the tree. -/
theorem interchangeable_evaluate [Library] {c : Constraint} (h : c.any isQuery = false)
    (document : Json) :
    Interchangeable (c.evaluate ⟨document, .stub⟩) c := by
  match c with
  | .constant _ => exact .refl _
  | .object fields => exact .object (interchangeable_evaluateFields h document)
  | .array items => exact .array (interchangeable_evaluateItems h document)
  | .matcher _ => exact .refl _
  | .extraction _ => cases h
  | .dual s stub test =>
    simp only [any, isQuery, Bool.false_or, Bool.or_eq_false_iff] at h
    -- both the value and what it is evaluated to come down to the side that a stub takes
    refine .trans ?_ (.dual s stub test)
    cases s with
    | both => exact interchangeable_evaluateBranch h.1 document
    | stubOnly => exact interchangeable_evaluateBranch h.1 document
    | testOnly => exact interchangeable_evaluateBranch h.2 document
termination_by structural c

theorem interchangeable_evaluateFields [Library] {fields : List (String × Constraint)}
    (h : anyField isQuery fields = false) (document : Json) :
    List.Forall₂ (fun f g => f.1 = g.1 ∧ Interchangeable f.2 g.2)
      (evaluateFields ⟨document, .stub⟩ fields) fields := by
  match fields with
  | [] => exact .nil
  | (k, c) :: rest =>
    rw [anyField, Bool.or_eq_false_iff] at h
    exact .cons ⟨rfl, interchangeable_evaluate h.1 document⟩
      (interchangeable_evaluateFields h.2 document)
termination_by structural fields

theorem interchangeable_evaluateItems [Library] {items : List Constraint}
    (h : anyItem isQuery items = false) (document : Json) :
    List.Forall₂ Interchangeable (evaluateItems ⟨document, .stub⟩ items) items := by
  match items with
  | [] => exact .nil
  | c :: rest =>
    rw [anyItem, Bool.or_eq_false_iff] at h
    exact .cons (interchangeable_evaluate h.1 document)
      (interchangeable_evaluateItems h.2 document)
termination_by structural items

theorem interchangeable_evaluateBranch [Library] {branch : Option Constraint}
    (h : anyBranch isQuery branch = false) (document : Json) :
    Interchangeable (evaluateBranch ⟨document, .stub⟩ branch)
      (branch.getD (.constant .null)) := by
  match branch with
  | none => exact .refl _
  | some c => exact interchangeable_evaluate h document
termination_by structural branch

end

/-- A tree without queries need not be evaluated for the stub first. Every value meets it, does not
meet it or cannot be compared with it just as with the evaluated tree, and from every source of
random numbers the same value is drawn for both, or drawing fails alike, with the same numbers used
up. -/
theorem unevaluated_agrees [Library] {c : Constraint} (h : c.any isQuery = false) (ctx : Context)
    (hstub : ctx.mode = .stub) :
    (∀ v, c.compare v = (c.evaluate ctx).compare v)
      ∧ ∀ now draws, (c.mock now).run draws = ((c.evaluate ctx).mock now).run draws := by
  obtain ⟨document, m⟩ := ctx
  obtain rfl : m = .stub := hstub
  have hsame := interchangeable_evaluate h document
  exact ⟨fun v => (hsame.compare v).symm, fun now draws => by rw [hsame.mock]⟩

section Simple

attribute [local instance] Library.simple

/-- A side in a side, a missing side and a condition, each evaluated and not. -/
theorem unevaluated_agrees_sides :
    let c : Constraint := .array [
      .dual .both (some (.dual .testOnly none (some (.matcher .uuid4)))) (some (.constant .null)),
      .object [("a", .dual .stubOnly none (some (.array [])))]]
    let ctx : Context := ⟨.object [], .stub⟩
    c.any isQuery = false ∧ ctx.mode = .stub
      ∧ (∀ v, c.compare v = (c.evaluate ctx).compare v)
      ∧ ∀ now draws, (c.mock now).run draws = ((c.evaluate ctx).mock now).run draws :=
  ⟨rfl, rfl, unevaluated_agrees rfl _ rfl⟩

end Simple

end HttpContract.Constraint
