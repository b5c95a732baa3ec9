import HttpContract.Constraint.Evaluate
import HttpContract.Constraint.Printer
import HttpContract.Proofs.Constraint.Scripted

/-!
# Constraint — settled trees

Written trees do not tell values with one fixed side from that side, and the name of two-sided
values may be bound anew when they are read. `settled s` is the tree that is read back: a one-sided
value is its side, or null, and a two-sided one takes its sides as `s` says. Settling does not
change the written form (`chars_settled`), nor what a tree is in a context that takes the same sides
(`Scripted.evaluate_settled`).
-/

namespace HttpContract.Constraint

mutual

/-- The tree that is read back from the script of a tree, two-sided values being of the kind `s`. -/
def settled (s : Sidedness) : Constraint → Constraint
  | constant v => constant v
  | object fields => object (settledFields s fields)
  | array items => array (settledItems s items)
  | matcher m => matcher m
  | extraction e => extraction e
  | dual .both stub test => dual s (settledBranch s stub) (settledBranch s test)
  | dual .stubOnly stub _ => (settledBranch s stub).getD (constant .null)
  | dual .testOnly _ test => (settledBranch s test).getD (constant .null)
termination_by structural c => c

/-- The fields that are read back. -/
def settledFields (s : Sidedness) : List (String × Constraint) → List (String × Constraint)
  | [] => []
  | (k, c) :: rest => (k, c.settled s) :: settledFields s rest
termination_by structural fields => fields

/-- The items that are read back. -/
def settledItems (s : Sidedness) : List Constraint → List Constraint
  | [] => []
  | c :: rest => c.settled s :: settledItems s rest
termination_by structural items => items

/-- The side that is read back. -/
def settledBranch (s : Sidedness) : Option Constraint → Option Constraint
  | none => none
  | some c => some (c.settled s)
termination_by structural c => c

end

variable {sides : Sidedness → Prop} {s : Sidedness} {c : Constraint}

theorem settledFields_eq_map (s : Sidedness) (fields : List (String × Constraint)) :
    settledFields s fields = fields.map fun f => (f.1, f.2.settled s) := by
  induction fields with
  | nil => rfl
  | cons f rest ih => rw [settledFields, ih, List.map_cons]

theorem settledItems_eq_map (s : Sidedness) (items : List Constraint) :
    settledItems s items = items.map (settled s) := by
  induction items with
  | nil => rfl
  | cons c rest ih => rw [settledItems, ih, List.map_cons]

theorem settledBranch_eq_map (s : Sidedness) (branch : Option Constraint) :
    settledBranch s branch = branch.map (settled s) := by
  cases branch <;> rfl

/-- Trees with values for both sides only are read back as they are. -/
theorem Scripted.settled_eq [Library] (h : c.Scripted (· = .both)) : c.settled .both = c := by
  induction h with
  | constant => rfl
  | @object fields _ _ ih =>
    rw [settled, settledFields_eq_map, map_eq_self fun f hf => by rw [ih f hf]]
  | array _ ih => rw [settled, settledItems_eq_map, map_eq_self ih]
  | matcher => rfl
  | extraction => rfl
  | dual hs _ _ ihstub ihtest =>
    subst hs
    rw [settled, settledBranch_eq_map, settledBranch_eq_map, option_map_eq_self ihstub,
      option_map_eq_self ihtest]

/-- What is read back is a tree that scripts mean, all its two-sided values being of one kind. -/
theorem Scripted.settled [Library] (h : c.Scripted sides) (s : Sidedness) :
    (c.settled s).Scripted (· = s) := by
  have hbranch : ∀ {branch : Option Constraint},
      (∀ c ∈ branch, (Constraint.settled s c).Scripted (· = s)) →
      ∀ c ∈ settledBranch s branch, c.Scripted (· = s) := by
    intro branch ih d hd
    rw [settledBranch_eq_map, Option.mem_def, Option.map_eq_some_iff] at hd
    obtain ⟨c, hc, rfl⟩ := hd
    exact ih c hc
  have hside : ∀ {branch : Option Constraint},
      (∀ c ∈ branch, (Constraint.settled s c).Scripted (· = s)) →
      ((settledBranch s branch).getD (.constant .null)).Scripted (· = s) := by
    intro branch ih
    cases branch with
    | none => exact .constant rfl .null
    | some c => exact ih c rfl
  induction h with
  | constant hscalar hv => exact .constant hscalar hv
  | object hkeys _ ih =>
    rw [Constraint.settled, settledFields_eq_map]
    refine .object ?_ ?_
    · rw [List.map_map]
      exact hkeys
    · intro f hf
      obtain ⟨g, hg, rfl⟩ := List.mem_map.mp hf
      exact ih g hg
  | array _ ih =>
    rw [Constraint.settled, settledItems_eq_map]
    refine .array ?_
    intro d hd
    obtain ⟨c, hc, rfl⟩ := List.mem_map.mp hd
    exact ih c hc
  | matcher hm => exact .matcher hm
  | extraction he => exact .extraction he
  | @dual side stub test _ _ _ ihstub ihtest =>
    cases side with
    | both => exact .dual rfl (hbranch ihstub) (hbranch ihtest)
    -- a one-sided value is gone, and the side that is left is settled itself
    | stubOnly => exact hside ihstub
    | testOnly => exact hside ihtest

/-! ## The written form -/

theorem chars_null (level : Option Nat) :
    (constant .null).chars level = ['n', 'u', 'l', 'l'] := by
  cases level <;> rfl

/-- A missing side is written as null. -/
theorem chars_getD (level : Option Nat) (branch : Option Constraint) :
    (branch.getD (constant .null)).chars level
      = (charsOfBranch? level branch).getD ['n', 'u', 'l', 'l'] := by
  cases branch with
  | none => exact chars_null level
  | some c => rfl

mutual

/-- What is read back is written alike. -/
theorem chars_settled (c : Constraint) (level : Option Nat) :
    (c.settled .both).chars level = c.chars level :=
  match c with
  | .constant _ => rfl
  | .object [] => rfl
  | .object ((k, c) :: rest) => by
    rw [settled, settledFields, chars, chars, chars_settled c, charsOfFields_settled rest]
  | .array [] => rfl
  | .array (c :: rest) => by
    rw [settled, settledItems, chars, chars, chars_settled c, charsOfItems_settled rest]
  | .matcher _ => rfl
  | .extraction _ => rfl
  | .dual .both stub test => by
    rw [settled, chars, chars, charsOfBranch?_settled stub, charsOfBranch?_settled test]
  | .dual .stubOnly stub test => by
    rw [settled, chars, chars_getD, charsOfBranch?_settled stub]
  | .dual .testOnly stub test => by
    rw [settled, chars, chars_getD, charsOfBranch?_settled test]
termination_by structural c

theorem charsOfFields_settled (fields : List (String × Constraint)) (level : Option Nat) :
    charsOfFields level (settledFields .both fields) = charsOfFields level fields :=
  match fields with
  | [] => rfl
  | (k, c) :: rest => by
    rw [settledFields, charsOfFields, charsOfFields, chars_settled c, charsOfFields_settled rest]
termination_by structural fields

theorem charsOfItems_settled (items : List Constraint) (level : Option Nat) :
    charsOfItems level (settledItems .both items) = charsOfItems level items :=
  match items with
  | [] => rfl
  | c :: rest => by
    rw [settledItems, charsOfItems, charsOfItems, chars_settled c, charsOfItems_settled rest]
termination_by structural items

theorem charsOfBranch?_settled (branch : Option Constraint) (level : Option Nat) :
    charsOfBranch? level (settledBranch .both branch) = charsOfBranch? level branch :=
  match branch with
  | none => rfl
  | some c => by rw [settledBranch, charsOfBranch?, charsOfBranch?, chars_settled c]
termination_by structural branch

end

/-! ## Evaluation -/

theorem evaluateFields_eq_map [Library] (ctx : Context) (fields : List (String × Constraint)) :
    evaluateFields ctx fields = fields.map fun f => (f.1, f.2.evaluate ctx) := by
  induction fields with
  | nil => rfl
  | cons f rest ih => rw [evaluateFields, ih, List.map_cons]

theorem evaluateItems_eq_map [Library] (ctx : Context) (items : List Constraint) :
    evaluateItems ctx items = items.map (evaluate ctx) := by
  induction items with
  | nil => rfl
  | cons c rest ih => rw [evaluateItems, ih, List.map_cons]

/-- A two-sided value is evaluated to its selected side. -/
theorem evaluate_dual [Library] (ctx : Context) (s : Sidedness) (stub test : Option Constraint) :
    (dual s stub test).evaluate ctx = evaluateBranch ctx (selected s ctx.mode stub test) := by
  cases s with
  | both =>
    rw [evaluate]
    cases ctx.mode <;> rfl
  | stubOnly => rfl
  | testOnly => rfl

theorem evaluateBranch_getD [Library] (ctx : Context) (branch : Option Constraint) :
    (branch.getD (constant .null)).evaluate ctx = evaluateBranch ctx branch := by
  cases branch <;> rfl

/-- Contexts with the same document, the one taking those sides of two-sided values of a kind that
the other takes of values for both sides. -/
structure Agree (s : Sidedness) (ctx ctx' : Context) : Prop where
  document : ctx.document = ctx'.document
  side : ∀ stub test, selected s ctx.mode stub test = selected .both ctx'.mode stub test

theorem Agree.refl (ctx : Context) : Agree .both ctx ctx := ⟨rfl, fun _ _ => rfl⟩

/-- What is read back is the same in a context that takes the same sides of two-sided values. -/
theorem Scripted.evaluate_settled [Library] (h : c.Scripted sides) {ctx ctx' : Context}
    (hctx : Agree s ctx ctx') : (c.settled s).evaluate ctx = c.evaluate ctx' := by
  have hbranch : ∀ {branch : Option Constraint},
      (∀ c ∈ branch, (Constraint.settled s c).evaluate ctx = c.evaluate ctx') →
      evaluateBranch ctx (settledBranch s branch) = evaluateBranch ctx' branch := by
    intro branch ih
    cases branch with
    | none => rfl
    | some c => exact ih c rfl
  induction h with
  | constant => rfl
  | object _ _ ih =>
    rw [Constraint.settled, settledFields_eq_map, evaluate, evaluate, evaluateFields_eq_map,
      evaluateFields_eq_map, List.map_map]
    congr 1
    exact List.map_congr_left fun f hf => by rw [Function.comp_apply, ih f hf]
  | array _ ih =>
    rw [Constraint.settled, settledItems_eq_map, evaluate, evaluate, evaluateItems_eq_map,
      evaluateItems_eq_map, List.map_map]
    congr 1
    exact List.map_congr_left ih
  | matcher => rfl
  | extraction =>
    rw [Constraint.settled, evaluate, evaluate, hctx.document]
  | @dual side stub test _ _ _ ihstub ihtest =>
    cases side with
    | both =>
      rw [Constraint.settled, evaluate_dual, evaluate_dual, hctx.side]
      cases ctx'.mode
      · exact hbranch ihstub
      · exact hbranch ihtest
    | stubOnly =>
      rw [Constraint.settled, evaluateBranch_getD, evaluate_dual]
      exact hbranch ihstub
    | testOnly =>
      rw [Constraint.settled, evaluateBranch_getD, evaluate_dual]
      exact hbranch ihtest

end HttpContract.Constraint
