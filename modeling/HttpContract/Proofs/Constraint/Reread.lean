import HttpContract.Library.Simple
import HttpContract.Proofs.Constraint.Settled
import HttpContract.Proofs.Script.Layout

/-!
# Constraint — written trees are read back

A tree that a script means is written, compact or laid out, as a script that scans to its expression
(`prints_chars`), and the expression means what is settled of the tree (`value_expression`). So the
texts of a tree without one-sided values are scripts for the same tree (`run_texts`).
-/

namespace HttpContract.Constraint

open Script (Bindings Builtin Expression Prints TokenKind Limits enclosed following isCallable
  isPlainName prints_name prints_quoted)
open Script.Expression (members)
open Matcher (call commaSeparated given)

variable {sides : Sidedness → Prop} {s : Sidedness} {bindings : Bindings} {c : Constraint}

/-! ## The expression of a tree -/

/-- A side as a field of the argument of its call, if there is one. -/
def sideField (label : String) (branch : Option Expression) : List (TokenKind × Expression) :=
  match branch with
  | none => []
  | some e => [(.identifier label, e)]

/-- The expression of a matcher. -/
def Matcher.expression (m : Matcher) : Expression :=
  .call m.kind (m.arguments.map .ofJson) false

mutual

/-- The expression that a tree is written as. -/
def expression : Constraint → Expression
  | constant v => .ofJson v
  | object fields => .object (expressionFields fields) false
  | array items => .array (expressionItems items) false
  | matcher m => m.expression
  | extraction e => .call "jsonpath" [.string e.expression] false
  | dual .both stub test =>
    .call "value" [.object (sideField "stub" (expressionBranch? stub)
      ++ sideField "test" (expressionBranch? test)) false] false
  | dual .stubOnly stub _ => (expressionBranch? stub).getD (.word "null")
  | dual .testOnly _ test => (expressionBranch? test).getD (.word "null")
termination_by structural c => c

/-- The expressions of fields. -/
def expressionFields : List (String × Constraint) → List (TokenKind × Expression)
  | [] => []
  | (k, c) :: rest => (.string k, c.expression) :: expressionFields rest
termination_by structural fields => fields

/-- The expressions of items. -/
def expressionItems : List Constraint → List Expression
  | [] => []
  | c :: rest => c.expression :: expressionItems rest
termination_by structural items => items

/-- The expression of a side, if there is one. -/
def expressionBranch? : Option Constraint → Option Expression
  | none => none
  | some c => some c.expression
termination_by structural branch => branch

end

theorem expressionFields_eq_map (fields : List (String × Constraint)) :
    expressionFields fields = fields.map fun f => (.string f.1, f.2.expression) := by
  induction fields with
  | nil => rfl
  | cons f rest ih => rw [expressionFields, ih, List.map_cons]

theorem expressionItems_eq_map (items : List Constraint) :
    expressionItems items = items.map expression := by
  induction items with
  | nil => rfl
  | cons c rest ih => rw [expressionItems, ih, List.map_cons]

/-! ## Layout -/

/-- What stands between a colon and the value behind it. -/
def afterColon (level : Option Nat) : List Char := if level.isSome then [' '] else []

theorem blank_afterColon (level : Option Nat) : Script.Blank (afterColon level) := by
  cases level <;> intro c hc <;> simp_all [afterColon]

theorem blank_lineStart (level : Option Nat) : Script.Blank (lineStart level) := by
  cases level with
  | none => exact blank_nil
  | some n =>
    intro c hc
    simp only [lineStart, Json.newLine, List.mem_cons, List.mem_replicate] at hc
    rcases hc with rfl | ⟨-, rfl⟩
    · exact .inr rfl
    · exact .inl rfl

/-- The text of a field. -/
def fieldChars (level : Option Nat) (f : String × Constraint) : List Char :=
  Json.quotedChars f.1 ++ ':' :: (afterColon level ++ f.2.chars (inside level))

theorem keyChars_append (level : Option Nat) (f : String × Constraint) :
    keyChars level f.1 ++ f.2.chars (inside level) = fieldChars level f := by
  simp only [keyChars, fieldChars, afterColon, List.append_assoc, List.cons_append]

theorem charsOfFields_eq (level : Option Nat) (fields : List (String × Constraint)) :
    charsOfFields level fields = following (lineStart (inside level)) (lineStart level ++ ['\x7d'])
      (fields.map (fieldChars level)) := by
  induction fields with
  | nil => rfl
  | cons f rest ih =>
    rw [charsOfFields, List.append_assoc, List.append_assoc, ← List.append_assoc (keyChars ..),
      keyChars_append, ih, List.map_cons, following, List.append_assoc]

theorem charsOfItems_eq (level : Option Nat) (items : List Constraint) :
    charsOfItems level items = following (lineStart (inside level)) (lineStart level ++ [']'])
      (items.map (chars (inside level))) := by
  induction items with
  | nil => rfl
  | cons c rest ih => rw [charsOfItems, ih, List.map_cons, following]

theorem chars_object_eq (level : Option Nat) (fields : List (String × Constraint)) :
    (object fields).chars level = enclosed '\x7b' '\x7d' (lineStart (inside level))
      (lineStart (inside level)) (lineStart level) (fields.map (fieldChars level)) := by
  cases fields with
  | nil => rfl
  | cons f rest =>
    rw [chars, List.append_assoc, List.append_assoc, ← List.append_assoc (keyChars ..),
      keyChars_append, charsOfFields_eq, List.map_cons, enclosed, List.append_assoc]

theorem chars_array_eq (level : Option Nat) (items : List Constraint) :
    (array items).chars level = enclosed '[' ']' (lineStart (inside level))
      (lineStart (inside level)) (lineStart level) (items.map (chars (inside level))) := by
  cases items with
  | nil => rfl
  | cons c rest => rw [chars, charsOfItems_eq, List.map_cons, enclosed]

theorem commaSeparated_cons (v : Json) (rest : List Json) (ending : List Char) :
    commaSeparated (v :: rest) ++ ending
      = v.chars ++ following [' '] ending (rest.map Json.chars) := by
  induction rest generalizing v with
  | nil => rfl
  | cons w rest ih =>
    rw [commaSeparated, List.append_assoc, List.cons_append, List.cons_append, ih, List.map_cons,
      following]
    · rfl
    · simp

/-- Arguments between parentheses. -/
theorem call_eq (name : String) (vs : List Json) :
    call name (commaSeparated vs)
      = name.toList ++ enclosed '(' ')' [] [' '] [] (vs.map Json.chars) := by
  cases vs with
  | nil => rfl
  | cons v rest => rw [call, commaSeparated_cons, List.map_cons, enclosed, List.nil_append,
      List.nil_append]

/-! ## Scanning -/

/-- Calls of the standard functions. -/
theorem prints_call {name : String} {cs : List Char} (gap : List Char) (css : List (List Char))
    {kss : List (List TokenKind)} (hname : isPlainName name = true) (hgap : Script.Blank gap)
    (hcs : cs = name.toList ++ enclosed '(' ')' [] gap [] css) (h : List.Forall₂ Prints css kss) :
    Prints cs
      (.identifier name :: .symbol .leftParen :: (members kss ++ [.symbol .rightParen])) := by
  subst hcs
  refine Prints.after_name hname (Prints.enclosed .leftParen .rightParen blank_nil hgap blank_nil
    (by simp) (by simp) (by decide) h) fun rest => ?_
  cases css <;> exact .cons (by decide)

theorem isPlainName_label (b : Builtin) : isPlainName b.label = true := by
  cases b <;> decide

theorem isCallable_label (b : Builtin) : isCallable b.label = true := by
  cases b <;> decide

theorem prints_matcher [Library] {m : Matcher} (h : m.Scripted) :
    Prints m.chars m.expression.kinds := by
  rw [Matcher.expression, Expression.kinds, Expression.itemKinds_false, List.map_map,
    ← m.label_builtin]
  refine prints_call [' '] _ (isPlainName_label m.builtin) ?_ ?_
    (forall₂_map fun v hv => prints_json (h.arguments v hv))
  · intro c hc
    exact .inl (List.mem_singleton.mp hc)
  · rw [m.chars_eq_call, m.label_builtin, call_eq]

/-- The texts of the sides that there are. -/
def sideChars (label : String) (branch : Option (List Char)) : List (List Char) :=
  match branch with
  | none => []
  | some cs => [labelled label cs]

theorem dualCall_eq (stub test : Option (List Char)) :
    dualCall stub test = "value".toList ++ enclosed '(' ')' [] [] []
      [enclosed '\x7b' '\x7d' [] [' '] [] (sideChars "stub" stub ++ sideChars "test" test)] := by
  cases stub <;> cases test <;>
    simp [dualCall, call, sideChars, enclosed, following]

theorem prints_side {label : String} (hlabel : isPlainName label = true)
    {branch : Option Constraint} {level : Option Nat}
    (h : ∀ c ∈ branch, Prints (c.chars level) c.expression.kinds) :
    List.Forall₂ Prints (sideChars label (charsOfBranch? level branch))
      ((sideField label (expressionBranch? branch)).map fun f =>
        f.1 :: .symbol .colon :: f.2.kinds) := by
  cases branch with
  | none => exact .nil
  | some c =>
    refine .cons ?_ .nil
    have hblank : Script.Blank [' '] := by
      intro c hc
      exact .inl (List.mem_singleton.mp hc)
    exact (prints_name label hlabel).keyed hblank (h c rfl)

theorem prints_branch {branch : Option Constraint} {level : Option Nat}
    (h : ∀ c ∈ branch, Prints (c.chars level) c.expression.kinds) :
    Prints ((charsOfBranch? level branch).getD ['n', 'u', 'l', 'l'])
      ((expressionBranch? branch).getD (.word "null")).kinds := by
  cases branch with
  | none => exact prints_name "null" (by decide)
  | some c => exact h c rfl

/-- A single value is written alike at every level. -/
theorem jsonChars_scalar {v : Json} (h : v.isScalar = true) (level : Option Nat) :
    jsonChars level v = v.chars := by
  cases level with
  | none => rfl
  | some n =>
    cases v with
    | array items => cases h
    | object fields => cases h
    | bool b => cases b <;> rfl
    | _ => rfl

/-- The script of a tree, compact or laid out, scans to its expression. -/
theorem prints_chars [Library] (h : c.Scripted sides) (level : Option Nat) :
    Prints (c.chars level) c.expression.kinds := by
  induction h generalizing level with
  | constant hscalar hv =>
    rw [chars, jsonChars_scalar hscalar]
    exact prints_json hv
  | @object fields _ _ ih =>
    rw [chars_object_eq, expression, Expression.kinds, Expression.fieldKinds_false,
      expressionFields_eq_map, List.map_map]
    refine Prints.enclosed .leftBrace .rightBrace (blank_lineStart _) (blank_lineStart _)
      (blank_lineStart _) (by simp) (by simp) (by decide) (forall₂_map ?_)
    intro f hf
    exact (prints_quoted f.1).keyed (blank_afterColon level) (ih f hf _)
  | @array items _ ih =>
    rw [chars_array_eq, expression, Expression.kinds, Expression.itemKinds_false,
      expressionItems_eq_map, List.map_map]
    exact Prints.enclosed .leftBracket .rightBracket (blank_lineStart _) (blank_lineStart _)
      (blank_lineStart _) (by simp) (by simp) (by decide) (forall₂_map fun c hc => ih c hc _)
  | matcher hm => exact prints_matcher hm
  | @extraction e he =>
    rw [expression, Expression.kinds, Expression.itemKinds_false]
    refine prints_call [] [Json.quotedChars e.expression] (by decide) blank_nil ?_
      (.cons (prints_quoted e.expression) .nil)
    simp [chars, call, enclosed, following]
  | @dual side stub test _ _ _ ihstub ihtest =>
    cases side with
    | both =>
      rw [chars, dualCall_eq, expression, Expression.kinds, Expression.itemKinds_false]
      refine prints_call [] _ (by decide) blank_nil rfl (.cons ?_ .nil)
      rw [Expression.kinds, Expression.fieldKinds_false, List.map_append]
      refine Prints.enclosed .leftBrace .rightBrace blank_nil ?_ blank_nil (by simp) (by simp)
        (by decide) (List.rel_append ?_ ?_)
      · intro c hc
        exact .inl (List.mem_singleton.mp hc)
      · exact prints_side (by decide) fun c hc => ihstub c hc level
      · exact prints_side (by decide) fun c hc => ihtest c hc level
    | stubOnly =>
      rw [chars, expression]
      exact prints_branch fun c hc => ihstub c hc level
    | testOnly =>
      rw [chars, expression]
      exact prints_branch fun c hc => ihtest c hc level

/-! ## Meaning -/

/-- The function that makes the two-sided values of a kind. -/
def sideBuiltin : Sidedness → Builtin
  | .both => .value
  | .stubOnly => .stubValue
  | .testOnly => .testValue

/-- Bindings of the standard names, but that `value` makes two-sided values of a kind. -/
def Binds (bindings : Bindings) (s : Sidedness) : Prop :=
  ∀ b : Builtin, bindings.lookup b.label = some (if b = .value then sideBuiltin s else b)

theorem binds_standard : Binds Bindings.standard .both := by
  intro b
  cases b <;> rfl

theorem binds_bind (s : Sidedness) :
    Binds (Bindings.standard.bind "value" (sideBuiltin s)) s := by
  intro b
  cases b <;> rfl

/-- A call of a standard function means what the function makes. -/
theorem value_call [Library] {b b' : Builtin} {es : List Expression} {vs : List (Option Constraint)}
    {c : Constraint} (hb : bindings.lookup b.label = some b')
    (hvs : Expression.itemValues bindings es = some vs) (hc : b'.make vs = .ok c) :
    (Expression.call b.label es false).value bindings = some (some c) := by
  simp only [Expression.value, isCallable_label, if_true, hb, hvs, Builtin.apply, hc,
    Except.toOption, Option.map_some]

theorem value_matcher [Library] (hbinds : Binds bindings s) {m : Matcher} (h : m.Scripted) :
    m.expression.value bindings = some (some (.matcher m)) := by
  -- only the name of two-sided values is bound anew
  have hne : m.builtin ≠ .value := by
    cases m with
    | number kind _ => cases kind <;> simp [Matcher.builtin]
    | fake kind => cases kind <;> simp [Matcher.builtin]
    | _ => simp [Matcher.builtin]
  have hb := hbinds m.builtin
  rw [if_neg hne] at hb
  have hvs : Expression.itemValues bindings (m.arguments.map .ofJson) = some (given m.arguments) :=
    Expression.itemValues_map fun v hv => value_ofJson bindings (h.arguments v hv)
  rw [Matcher.expression, ← m.label_builtin]
  exact value_call hb hvs h.made

/-- The sides of a two-sided value as the fields of its argument. -/
def sideFields (stub test : Option Constraint) : List (String × Constraint) :=
  (stub.map fun c => ("stub", c)).toList ++ (test.map fun c => ("test", c)).toList

theorem dual_sideFields (s : Sidedness) (stub test : Option Constraint) :
    Builtin.dual s (some (.object (sideFields stub test))) = .ok (.dual s stub test) := by
  cases stub <;> cases test <;> rfl

theorem fieldValues_sides [Library] {stub test : Option Constraint}
    (hstub : ∀ c ∈ stub, c.expression.value bindings = some (some (c.settled s)))
    (htest : ∀ c ∈ test, c.expression.value bindings = some (some (c.settled s))) :
    Expression.fieldValues bindings []
        (sideField "stub" (expressionBranch? stub) ++ sideField "test" (expressionBranch? test))
      = some (sideFields (settledBranch s stub) (settledBranch s test)) := by
  cases stub with
  | none =>
    cases test with
    | none => rfl
    | some d =>
      simp only [expressionBranch?, sideField, List.nil_append, Expression.fieldValues,
        Script.keyOf?, htest d rfl]
      rfl
  | some c =>
    cases test with
    | none =>
      simp only [expressionBranch?, sideField, List.append_nil, Expression.fieldValues,
        Script.keyOf?, hstub c rfl]
      rfl
    | some d =>
      simp only [expressionBranch?, sideField, List.cons_append, List.nil_append,
        Expression.fieldValues, Script.keyOf?, hstub c rfl, htest d rfl]
      rfl

theorem value_branch [Library] {branch : Option Constraint}
    (h : ∀ c ∈ branch, c.expression.value bindings = some (some (c.settled s))) :
    ((expressionBranch? branch).getD (.word "null")).value bindings
      = some (some ((settledBranch s branch).getD (.constant .null))) := by
  cases branch with
  | none => rfl
  | some c => exact h c rfl

theorem make_sideBuiltin [Library] (s : Sidedness) (arguments : List (Option Constraint)) :
    (sideBuiltin s).make arguments = Builtin.dual s arguments.head?.join := by
  cases s <;> rfl

theorem ofJson_scalar {v : Json} (h : v.isScalar = true) : ofJson v = .constant v := by
  cases v with
  | array items => cases h
  | object fields => cases h
  | _ => rfl

/-- The expression of a tree means what is settled of it. -/
theorem value_expression [Library] (hbinds : Binds bindings s) (h : c.Scripted sides) :
    c.expression.value bindings = some (some (c.settled s)) := by
  induction h with
  | constant hscalar hv =>
    rw [expression, value_ofJson bindings hv, ofJson_scalar hscalar]
    rfl
  | @object fields hkeys _ ih =>
    have hbefore : ∀ f ∈ fields, f.1 ∉ ([] : List (String × Constraint)).map (·.1) := by simp
    have hvalues := Expression.fieldValues_map (fun f : String × Constraint => .string f.1) (·.1)
      (fun f _ => rfl) hkeys hbefore ih
    rw [expression, expressionFields_eq_map, Expression.value, hvalues, settled,
      settledFields_eq_map]
    rfl
  | array _ ih =>
    have hvalues := Expression.itemValues_map ih
    rw [expression, expressionItems_eq_map, Expression.value, hvalues, settled,
      settledItems_eq_map, Option.map_some, List.map_map]
    rfl
  | matcher hm => exact value_matcher hbinds hm
  | @extraction e he =>
    exact value_call (b := .jsonpath) (hbinds .jsonpath) rfl
      (Builtin.makeExtraction_expression he)
  | @dual side stub test _ _ _ ihstub ihtest =>
    cases side with
    | both =>
      have hfields := fieldValues_sides ihstub ihtest
      have hobject : Expression.itemValues bindings
          [.object (sideField "stub" (expressionBranch? stub)
            ++ sideField "test" (expressionBranch? test)) false]
          = some [some (.object (sideFields (settledBranch s stub) (settledBranch s test)))] := by
        simp only [Expression.itemValues, Expression.value, hfields, Option.map_some]
      refine value_call (b := .value) (hbinds .value) hobject ?_
      rw [if_pos rfl, make_sideBuiltin]
      exact dual_sideFields s _ _
    | stubOnly => exact value_branch ihstub
    | testOnly => exact value_branch ihtest

/-! ## Running the texts -/

/-- Running the script of a tree, compact or laid out, gives what is settled of the tree. -/
theorem Scripted.run_chars [Library] (h : c.Scripted sides) (hbinds : Binds bindings s)
    (hmodule : bindings.lookup "module" = none) {limits : Limits} (level : Option Nat)
    (hallow : limits.Allow (String.ofList (c.chars level)) c.expression) :
    Script.run limits bindings (String.ofList (c.chars level)) = .ok (c.settled s) := by
  have hscan := (prints_chars h level).scans [] .nil
  rw [List.append_nil, ← String.toList_ofList (l := c.chars level)] at hscan
  have hv := value_expression hbinds h
  exact Script.run_text hscan Script.ends_nil hv hallow (Script.head_ne_module hv hmodule)

/-- The texts of a tree that a script means, if it has no one-sided values, are scripts for the same
tree. -/
theorem run_texts [Library] {limits₀ limits : Limits} {bindings₀ : Bindings} {source : String}
    (h : Script.run limits₀ bindings₀ source = .ok c) (hsides : c.any isOneSided = false) :
    (limits.Allow c.text c.expression → Script.run limits Bindings.standard c.text = .ok c)
      ∧ (limits.Allow c.prettyText c.expression →
        Script.run limits Bindings.standard c.prettyText = .ok c) := by
  have hscripted : c.Scripted fun _ => True := scripted_of_run (fun _ _ _ _ _ _ => trivial) h
  have hboth := hscripted.bothSided hsides
  have hread : ∀ level, limits.Allow (String.ofList (c.chars level)) c.expression →
      Script.run limits Bindings.standard (String.ofList (c.chars level)) = .ok c := by
    intro level hallow
    have hrun := hboth.run_chars binds_standard rfl level hallow
    rwa [hboth.settled_eq] at hrun
  exact ⟨hread none, hread (some 0)⟩

section Simple

attribute [local instance] Library.simple

theorem run_texts_sides : ∃ c,
    Script.run {} Bindings.standard
        "value(\x7bstub: ['\\n', -0.5], test: anyOf(1e21, null)\x7d)" = .ok c
      ∧ Script.run {} Bindings.standard c.text = .ok c
      ∧ Script.run {} Bindings.standard c.prettyText = .ok c := by
  obtain ⟨c, hrun, hchecks⟩ : ∃ c, Script.run {} Bindings.standard
        "value(\x7bstub: ['\\n', -0.5], test: anyOf(1e21, null)\x7d)" = .ok c
      ∧ (decide (c.any isOneSided = false) && decide (Limits.Allow {} c.text c.expression)
        && decide (Limits.Allow {} c.prettyText c.expression)) = true :=
    exists_ok_of_any (by decide +kernel)
  simp only [Bool.and_eq_true, decide_eq_true_eq] at hchecks
  obtain ⟨⟨hsides, hcompact⟩, hpretty⟩ := hchecks
  exact ⟨c, hrun, (run_texts hrun hsides).1 hcompact, (run_texts hrun hsides).2 hpretty⟩

end Simple

end HttpContract.Constraint
