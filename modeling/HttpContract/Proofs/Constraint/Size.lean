import HttpContract.Proofs.Constraint.Growth

/-!
# Constraint — how long a laid-out tree is

The laid-out text of a tree takes no more bytes than there is in the tree, when each expression
counts for the line that it may stand on and each byte of a longer text for six, as an escape may
take (`size_chars`).
-/

namespace HttpContract.Constraint

open Script (Expression Measure enclosed following)
open String (utf8Len utf8Len_append utf8Len_cons utf8Len_nil utf8Len_toList)

variable {levels k : Nat} {c : Constraint} {sides : Sidedness → Prop}

/-- What a layout of some levels takes: for each expression the start of its line, a short key, and
a short text or the line behind its members. -/
def layout (levels : Nat) : Measure := ⟨4 * levels + 440, 6⟩

/-- What stands before and behind a member: the start of its line, a short key and a comma. -/
def margin (levels : Nat) : Nat := 2 * levels + 222

theorem size_quoted (levels : Nat) (s : String) :
    utf8Len (Json.quotedChars s) ≤ (layout levels).text s + 218 := by
  have hquoted := Json.size_quotedChars s
  unfold Measure.text
  split
  · rename_i hshort
    exact hquoted.trans (by unfold Measure.shortSize at hshort; omega)
  · exact hquoted.trans (by simp only [layout]; omega)

/-! ## Members -/

theorem size_following (gap ending : List Char) (css : List (List Char)) :
    utf8Len (following gap ending css)
      = (css.map fun cs => utf8Len cs + (utf8Len gap + 1)).sum + utf8Len ending := by
  have hcomma : ','.utf8Size = 1 := rfl
  induction css with
  | nil => simp [following]
  | cons cs rest ih =>
    rw [following, utf8Len_cons, utf8Len_append, utf8Len_append, ih, hcomma, List.map_cons,
      List.sum_cons]
    omega

/-- Members between symbols take no more than is allowed for each of them. -/
theorem size_enclosed {α : Type} (opening closing : Char) (first gap last : List Char)
    (hopening : opening.utf8Size = 1) (hclosing : closing.utf8Size = 1)
    (hfirst : utf8Len first ≤ utf8Len gap) {f : α → List Char} {g : α → Nat} {members : List α}
    (h : ∀ a ∈ members, utf8Len (f a) + (utf8Len gap + 1) ≤ g a) :
    utf8Len (enclosed opening closing first gap last (members.map f))
      ≤ utf8Len last + 2 + (members.map g).sum := by
  have hsum := List.sum_le_sum h
  cases members with
  | nil =>
    simp only [List.map_nil, enclosed, utf8Len_cons, utf8Len_nil, hopening, hclosing]
    omega
  | cons a rest =>
    simp only [List.map_cons, List.sum_cons] at hsum ⊢
    simp only [enclosed, utf8Len_cons, utf8Len_append, utf8Len_nil, size_following, hopening,
      hclosing, List.map_map, Function.comp_def]
    omega

/-! ## Compact values -/

theorem size_lineStart (k : Nat) : utf8Len (lineStart (some k)) = 2 * k + 1 := by
  have hspaces : ∀ n, utf8Len (List.replicate n ' ') = n := by
    intro n
    induction n with
    | zero => rfl
    | succ n ih => rw [List.replicate_succ, utf8Len_cons, ih]; rfl
  rw [lineStart, Json.newLine, utf8Len_cons, hspaces]
  rfl

theorem size_json (levels : Nat) {v : Json} (h : v.Scripted) :
    utf8Len v.chars + margin levels ≤ (ofJson v).weight (layout levels) := by
  have hnode : (layout levels).node = 4 * levels + 440 := rfl
  have hmargin : margin levels = 2 * levels + 222 := rfl
  induction h with
  | null =>
    show 4 + margin levels ≤ (layout levels).node
    omega
  | bool b =>
    have hlength : utf8Len (Json.bool b).chars ≤ 5 := by cases b <;> decide
    have hweight : (ofJson (.bool b)).weight (layout levels) = (layout levels).node := by
      cases b <;> rfl
    omega
  | string s =>
    have hquoted := size_quoted levels s
    show utf8Len (Json.quotedChars s) + _ ≤ (layout levels).node + (layout levels).text s
    omega
  | @integer n _ =>
    have hlength := Json.size_number (.integer n)
    rw [weight_number, Json.chars, utf8Len_toList]
    omega
  | float x =>
    have hlength := Json.size_number (.float x)
    rw [weight_number, Json.chars, utf8Len_toList]
    omega
  | @array items _ ih =>
    have hitems := size_enclosed '[' ']' [] [] [] rfl rfl le_rfl (f := Json.chars)
      (g := fun v => (ofJson v).weight (layout levels)) fun v hv => by
        have hv := ih v hv
        rw [utf8Len_nil]
        omega
    rw [HttpContract.chars_array_eq, ofJson, weight_array, ofItems_eq_map, List.map_map]
    simp only [utf8Len_nil, Function.comp_def] at hitems ⊢
    omega
  | @object fields _ _ ih =>
    have hfields := size_enclosed '\x7b' '\x7d' [] [] [] rfl rfl le_rfl
      (f := fun f : String × Json => Json.quotedChars f.1 ++ ':' :: f.2.chars)
      (g := fun f => (layout levels).text f.1 + (ofJson f.2).weight (layout levels)) fun f hf => by
        have hkey := size_quoted levels f.1
        have hvalue := ih f hf
        have hcolon : ':'.utf8Size = 1 := rfl
        rw [utf8Len_append, utf8Len_cons, utf8Len_nil]
        omega
    rw [HttpContract.chars_object_eq, weight_jsonObject, jsonWeight]
    simp only [utf8Len_nil] at hfields
    omega

/-! ## Laid-out trees -/

theorem size_kind (m : Matcher) : utf8Len m.kind.toList ≤ 9 := by
  rw [← m.label_builtin]
  generalize m.builtin = b
  cases b <;> decide

theorem size_matcher [Library] {m : Matcher} (h : m.Scripted) :
    utf8Len m.chars + margin levels ≤ (matcher m).weight (layout levels) := by
  have hnode : (layout levels).node = 4 * levels + 440 := rfl
  have hmargin : margin levels = 2 * levels + 222 := rfl
  have hkind := size_kind m
  have harguments := size_enclosed '(' ')' [] [' '] [] rfl rfl (Nat.zero_le _) (f := Json.chars)
    (g := fun v => (ofJson v).weight (layout levels)) fun v hv => by
      have hv := size_json levels (h.arguments v hv)
      have hblank : utf8Len [' '] = 1 := rfl
      omega
  rw [m.chars_eq_call, call_eq, utf8Len_append, weight_matcher]
  rw [utf8Len_nil] at harguments
  omega

theorem size_dualCall (stub test : Option (List Char)) :
    utf8Len (dualCall stub test) ≤ 29 + (stub.elim 0 utf8Len + test.elim 0 utf8Len) := by
  cases stub <;> cases test <;>
    simp [dualCall, Matcher.call, labelled, Char.utf8Size] <;> omega

theorem depth_le_both (stub test : Option Constraint) :
    (∀ c ∈ stub, c.depth ≤ (dual .both stub test).depth)
      ∧ ∀ c ∈ test, c.depth ≤ (dual .both stub test).depth := by
  cases stub <;> cases test <;>
    simp [depth, expression, expressionBranch?, sideField, Expression.depth,
      Expression.fieldDepth, Expression.itemDepth] <;> omega

/-- The text of a side takes no more bytes than there is in the side. -/
theorem size_branch {branch : Option Constraint}
    (h : ∀ c ∈ branch, utf8Len (c.chars (some k)) + margin levels ≤ c.weight (layout levels)) :
    (charsOfBranch? (some k) branch).elim 0 utf8Len ≤ branch.elim 0 (weight (layout levels))
      ∧ utf8Len ((charsOfBranch? (some k) branch).getD ['n', 'u', 'l', 'l']) + margin levels
        ≤ ((expressionBranch? branch).getD (.word "null")).weight (layout levels) := by
  cases branch with
  | none =>
    refine ⟨le_rfl, ?_⟩
    show 4 + (2 * levels + 222) ≤ 4 * levels + 440
    omega
  | some c => exact ⟨(Nat.le_add_right ..).trans (h c rfl), h c rfl⟩

/-- The laid-out text of a tree takes no more bytes than there is in the tree, with what stands
before and behind it. -/
theorem size_chars [Library] (h : c.Scripted sides) (hdepth : k + c.depth ≤ levels) :
    utf8Len (c.chars (some k)) + margin levels ≤ c.weight (layout levels) := by
  have hnode : (layout levels).node = 4 * levels + 440 := rfl
  have hmargin : margin levels = 2 * levels + 222 := rfl
  induction h generalizing k with
  | @constant v hscalar hv =>
    have hvalue := size_json levels hv
    rw [ofJson_scalar hscalar] at hvalue
    rw [chars, jsonChars_scalar hscalar]
    exact hvalue
  | @object fields _ _ ih =>
    obtain ⟨n, hn, hmembers⟩ := depth_object fields
    have hline := size_lineStart (k + 1)
    have hend := size_lineStart k
    have hfields := size_enclosed '\x7b' '\x7d' (lineStart (inside (some k)))
      (lineStart (inside (some k))) (lineStart (some k)) rfl rfl le_rfl (f := fieldChars (some k))
      (g := fun f => (layout levels).text f.1 + f.2.weight (layout levels)) fun f hf => by
        have hkey := size_quoted levels f.1
        have hmember := hmembers f hf
        have hvalue := ih f hf (k := k + 1) (by omega)
        have hcolon : ':'.utf8Size = 1 := rfl
        have hblank : utf8Len [' '] = 1 := rfl
        have hinside : inside (some k) = some (k + 1) := rfl
        have hafter : afterColon (some k) = [' '] := rfl
        rw [fieldChars, hinside, hafter, utf8Len_append, utf8Len_cons, utf8Len_append, hblank,
          hcolon, hline]
        omega
    rw [chars_object_eq, weight_object, fieldsWeight]
    omega
  | @array items _ ih =>
    obtain ⟨n, hn, hmembers⟩ := depth_array items
    have hline := size_lineStart (k + 1)
    have hend := size_lineStart k
    have hinside : inside (some k) = some (k + 1) := rfl
    have hitems := size_enclosed '[' ']' (lineStart (inside (some k)))
      (lineStart (inside (some k))) (lineStart (some k)) rfl rfl le_rfl
      (f := chars (inside (some k))) (g := weight (layout levels)) fun d hd => by
        have hmember := hmembers d hd
        have hvalue := ih d hd (k := k + 1) (by omega)
        rw [hinside, hline]
        omega
    rw [chars_array_eq, weight_array]
    omega
  | matcher hm => exact size_matcher hm
  | @extraction e _ =>
    have hquoted := size_quoted levels e.expression
    have hcall : utf8Len (Matcher.call "jsonpath" (Json.quotedChars e.expression))
        = utf8Len (Json.quotedChars e.expression) + 10 := by
      simp [Matcher.call, Char.utf8Size]
    rw [chars, hcall]
    show _ ≤ (layout levels).node + ((layout levels).node + (layout levels).text e.expression)
    omega
  | @dual side stub test _ _ _ ihstub ihtest =>
    cases side with
    | both =>
      obtain ⟨hstubdepth, htestdepth⟩ := depth_le_both stub test
      have hstub := (size_branch fun c hc => ihstub c hc
        ((Nat.add_le_add_left (hstubdepth c hc) k).trans hdepth)).1
      have htest := (size_branch fun c hc => ihtest c hc
        ((Nat.add_le_add_left (htestdepth c hc) k).trans hdepth)).1
      have hcall := size_dualCall (charsOfBranch? (some k) stub) (charsOfBranch? (some k) test)
      rw [chars, weight_both]
      omega
    | stubOnly =>
      refine (size_branch fun c hc => ihstub c hc ?_).2
      obtain rfl := Option.mem_def.mp hc
      exact hdepth
    | testOnly =>
      refine (size_branch fun c hc => ihtest c hc ?_).2
      obtain rfl := Option.mem_def.mp hc
      exact hdepth

end HttpContract.Constraint
