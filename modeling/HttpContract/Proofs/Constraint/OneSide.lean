import HttpContract.Proofs.Constraint.Settled

/-!
# Constraint — what one side sees

`seen m` is a tree without the sides of two-sided values that the mode `m` does not take: trees with
the same `seen m` differ only where that mode never looks. What is dropped has no part in evaluating
in that mode (`evaluate_seen`). It has none in the written form either, once all two-sided values
are bound to the side of the test (`chars_seen`).
-/

namespace HttpContract.Constraint

mutual

/-- The tree without the sides that a mode does not take. -/
def seen (m : Mode) : Constraint → Constraint
  | constant v => constant v
  | object fields => object (seenFields m fields)
  | array items => array (seenItems m items)
  | matcher x => matcher x
  | extraction e => extraction e
  | dual .both stub test =>
    match m with
    | .stub => dual .both (seenBranch m stub) none
    | .test => dual .both none (seenBranch m test)
  | dual .stubOnly stub _ => dual .stubOnly (seenBranch m stub) none
  | dual .testOnly _ test => dual .testOnly none (seenBranch m test)
termination_by structural c => c

/-- The fields without the sides that a mode does not take. -/
def seenFields (m : Mode) : List (String × Constraint) → List (String × Constraint)
  | [] => []
  | (k, c) :: rest => (k, c.seen m) :: seenFields m rest
termination_by structural fields => fields

/-- The items without the sides that a mode does not take. -/
def seenItems (m : Mode) : List Constraint → List Constraint
  | [] => []
  | c :: rest => c.seen m :: seenItems m rest
termination_by structural items => items

/-- A side without the sides within it that a mode does not take. -/
def seenBranch (m : Mode) : Option Constraint → Option Constraint
  | none => none
  | some c => some (c.seen m)
termination_by structural c => c

end

theorem seenFields_eq_map (m : Mode) (fields : List (String × Constraint)) :
    seenFields m fields = fields.map fun f => (f.1, f.2.seen m) := by
  induction fields with
  | nil => rfl
  | cons f rest ih => rw [seenFields, ih, List.map_cons]

theorem seenItems_eq_map (m : Mode) (items : List Constraint) :
    seenItems m items = items.map (seen m) := by
  induction items with
  | nil => rfl
  | cons c rest ih => rw [seenItems, ih, List.map_cons]

/-! ## Evaluation -/

mutual

/-- A mode evaluates a tree as what it sees of it. -/
theorem evaluate_seen [Library] (document : Json) (m : Mode) (c : Constraint) :
    (c.seen m).evaluate ⟨document, m⟩ = c.evaluate ⟨document, m⟩ := by
  match c with
  | .constant _ => rfl
  | .object fields => rw [seen, evaluate, evaluate, evaluateFields_seen document m fields]
  | .array items => rw [seen, evaluate, evaluate, evaluateItems_seen document m items]
  | .matcher _ => rfl
  | .extraction _ => rfl
  | .dual .both stub test =>
    cases m with
    | stub => exact evaluateBranch_seen document .stub stub
    | test => exact evaluateBranch_seen document .test test
  | .dual .stubOnly stub _ => exact evaluateBranch_seen document m stub
  | .dual .testOnly _ test => exact evaluateBranch_seen document m test
termination_by structural c

theorem evaluateFields_seen [Library] (document : Json) (m : Mode)
    (fields : List (String × Constraint)) :
    evaluateFields ⟨document, m⟩ (seenFields m fields) = evaluateFields ⟨document, m⟩ fields := by
  match fields with
  | [] => rfl
  | (k, c) :: rest =>
    rw [seenFields, evaluateFields, evaluateFields, evaluate_seen document m c,
      evaluateFields_seen document m rest]
termination_by structural fields

theorem evaluateItems_seen [Library] (document : Json) (m : Mode) (items : List Constraint) :
    evaluateItems ⟨document, m⟩ (seenItems m items) = evaluateItems ⟨document, m⟩ items := by
  match items with
  | [] => rfl
  | c :: rest =>
    rw [seenItems, evaluateItems, evaluateItems, evaluate_seen document m c,
      evaluateItems_seen document m rest]
termination_by structural items

theorem evaluateBranch_seen [Library] (document : Json) (m : Mode) (branch : Option Constraint) :
    evaluateBranch ⟨document, m⟩ (seenBranch m branch) = evaluateBranch ⟨document, m⟩ branch := by
  match branch with
  | none => rfl
  | some c => exact evaluate_seen document m c
termination_by structural branch

end

/-! ## Settling -/

theorem seen_getD (m : Mode) (branch : Option Constraint) :
    (branch.getD (constant .null)).seen m = (seenBranch m branch).getD (constant .null) := by
  cases branch <;> rfl

mutual

/-- Binding two-sided values to the side of the test keeps what the test sees. -/
theorem seen_settled (c : Constraint) :
    (c.settled .testOnly).seen .test = (c.seen .test).settled .testOnly := by
  match c with
  | .constant _ => rfl
  | .object fields => rw [settled, seen, seen, settled, seenFields_settled fields]
  | .array items => rw [settled, seen, seen, settled, seenItems_settled items]
  | .matcher _ => rfl
  | .extraction _ => rfl
  | .dual .both _ test => exact congrArg (dual .testOnly none) (seenBranch_settled test)
  | .dual .stubOnly stub _ => rw [settled, seen, settled, seen_getD, seenBranch_settled stub]
  | .dual .testOnly _ test => rw [settled, seen, settled, seen_getD, seenBranch_settled test]
termination_by structural c

theorem seenFields_settled (fields : List (String × Constraint)) :
    seenFields .test (settledFields .testOnly fields)
      = settledFields .testOnly (seenFields .test fields) := by
  match fields with
  | [] => rfl
  | (k, c) :: rest =>
    rw [settledFields, seenFields, seenFields, settledFields, seen_settled c,
      seenFields_settled rest]
termination_by structural fields

theorem seenItems_settled (items : List Constraint) :
    seenItems .test (settledItems .testOnly items)
      = settledItems .testOnly (seenItems .test items) := by
  match items with
  | [] => rfl
  | c :: rest =>
    rw [settledItems, seenItems, seenItems, settledItems, seen_settled c, seenItems_settled rest]
termination_by structural items

theorem seenBranch_settled (branch : Option Constraint) :
    seenBranch .test (settledBranch .testOnly branch)
      = settledBranch .testOnly (seenBranch .test branch) := by
  match branch with
  | none => rfl
  | some c => exact congrArg some (seen_settled c)
termination_by structural branch

end

/-! ## The written form -/

/-- A value that is bound to the side of the test is written as that side. -/
theorem Scripted.settled_seen [Library] {c : Constraint} (h : c.Scripted (· = .testOnly)) :
    (c.seen .test).settled .both = c.settled .both := by
  induction h with
  | constant => rfl
  | object _ _ ih =>
    rw [seen, Constraint.settled, Constraint.settled, seenFields_eq_map, settledFields_eq_map,
      settledFields_eq_map, List.map_map]
    congr 1
    exact List.map_congr_left fun f hf => by rw [Function.comp_apply, ih f hf]
  | array _ ih =>
    rw [seen, Constraint.settled, Constraint.settled, seenItems_eq_map, settledItems_eq_map,
      settledItems_eq_map, List.map_map]
    congr 1
    exact List.map_congr_left ih
  | matcher => rfl
  | extraction => rfl
  | @dual _ _ test hs _ _ _ ihtest =>
    subst hs
    cases test with
    | none => rfl
    | some c => exact ihtest c rfl

theorem Scripted.chars_seen [Library] {c : Constraint} (h : c.Scripted (· = .testOnly))
    (level : Option Nat) : (c.seen .test).chars level = c.chars level := by
  rw [← chars_settled, h.settled_seen, chars_settled]

end HttpContract.Constraint
