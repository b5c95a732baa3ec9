import HttpContract.Proofs.Basic
import HttpContract.Script.Parser

/-!
# Script.Expression — the syntax of scripts

An expression as a tree, apart from how it is read: `kinds` are its tokens, `value` is what it means
under some bindings, if it means anything, and `nodes` and `depth` are what reading it uses up.
Fields, items and arguments are separated by commas; one more comma may follow the last of them.
-/

namespace HttpContract.Script

/-- An expression. A trailing comma follows the last of some members. -/
inductive Expression where
  | word (name : String)
  | string (s : String)
  | number (n : Json.Number)
  | signed (negative : Bool) (n : Json.Number)
  | object (fields : List (TokenKind × Expression)) (trailing : Bool)
  | array (items : List Expression) (trailing : Bool)
  | call (name : String) (arguments : List Expression) (trailing : Bool)

instance : Inhabited Expression := ⟨.word "null"⟩

/-- Whether a name is a word that scripts may use. -/
def isWord (name : String) : Bool := !forbiddenNames.contains name && (wordValue? name).isSome

/-- Whether a name is one that scripts may call. -/
def isCallable (name : String) : Bool :=
  !forbiddenNames.contains name && (wordValue? name).isNone

theorem isWord_iff {name : String} :
    isWord name = true ↔ name ∉ forbiddenNames ∧ ∃ v, wordValue? name = some v := by
  simp [isWord, Option.isSome_iff_exists]

theorem isCallable_iff {name : String} :
    isCallable name = true ↔ name ∉ forbiddenNames ∧ wordValue? name = none := by
  simp [isCallable]

/-- The symbol of a sign. -/
def signSymbol (negative : Bool) : Symbol := if negative then .minus else .plus

/-- What stands between a member and those behind it. -/
def separator {α : Type} (trailing : Bool) (rest : List α) : List TokenKind :=
  if rest.isEmpty && !trailing then [] else [.symbol .comma]

namespace Expression

/-! ## Tokens -/

mutual

/-- The tokens of an expression. -/
def kinds : Expression → List TokenKind
  | word name => [.identifier name]
  | string s => [.string s]
  | number n => [.number n]
  | signed negative n => [.symbol (signSymbol negative), .number n]
  | object fields trailing =>
    .symbol .leftBrace :: (fieldKinds trailing fields ++ [.symbol .rightBrace])
  | array items trailing =>
    .symbol .leftBracket :: (itemKinds trailing items ++ [.symbol .rightBracket])
  | call name arguments trailing =>
    .identifier name :: .symbol .leftParen
      :: (itemKinds trailing arguments ++ [.symbol .rightParen])
termination_by structural e => e

/-- The tokens of fields. -/
def fieldKinds (trailing : Bool) : List (TokenKind × Expression) → List TokenKind
  | [] => []
  | (k, e) :: rest =>
    k :: .symbol .colon :: (kinds e ++ separator trailing rest ++ fieldKinds trailing rest)
termination_by structural fields => fields

/-- The tokens of items or arguments. -/
def itemKinds (trailing : Bool) : List Expression → List TokenKind
  | [] => []
  | e :: rest => kinds e ++ separator trailing rest ++ itemKinds trailing rest
termination_by structural items => items

end

/-- The tokens of members without a trailing comma. -/
def members : List (List TokenKind) → List TokenKind
  | [] => []
  | ks :: rest => ks ++ rest.flatMap (.symbol .comma :: ·)

theorem itemKinds_false (es : List Expression) :
    itemKinds false es = members (es.map kinds) := by
  induction es with
  | nil => rfl
  | cons e es ih =>
    rw [itemKinds, ih]
    cases es <;> simp [separator, members]

theorem fieldKinds_false (fs : List (TokenKind × Expression)) :
    fieldKinds false fs = members (fs.map fun f => f.1 :: .symbol .colon :: f.2.kinds) := by
  induction fs with
  | nil => rfl
  | cons f fs ih =>
    rw [fieldKinds, ih]
    cases fs <;> simp [separator, members]

theorem kinds_length_pos (e : Expression) : 0 < e.kinds.length := by
  cases e <;> simp [kinds]

/-- The first token of an expression closes nothing. -/
theorem kinds_cons (e : Expression) :
    ∃ k ls, e.kinds = k :: ls ∧ k ≠ .symbol .rightBracket ∧ k ≠ .symbol .rightParen := by
  cases e with
  | signed negative n =>
    refine ⟨_, _, rfl, ?_, ?_⟩ <;> cases negative <;> simp [signSymbol]
  | _ => exact ⟨_, _, rfl, by simp, by simp⟩

/-- Only the expression of a text starts with a text. -/
theorem eq_string_of_kinds {e : Expression} {x : String} {ks ls : List TokenKind}
    (h : e.kinds ++ ks = .string x :: ls) : e = .string x ∧ ks = ls := by
  cases e <;> simp_all [kinds]

/-! ## Meaning -/

mutual

/-- What an expression means; `undefined` means none. -/
def value [Library] (bindings : Bindings) : Expression → Option (Option Constraint)
  | word name => if isWord name then wordValue? name else none
  | string s => some (some (.constant (.string s)))
  | number n => some (some (.constant (.number n)))
  | signed negative n =>
    some (some (.constant (.number (if negative then negated n else n))))
  | object fields _ =>
    (fieldValues bindings [] fields).map fun fields => some (.object fields)
  | array items _ =>
    (itemValues bindings items).map fun values =>
      some (.array (values.map fun v => v.getD (.constant .null)))
  | call name arguments _ =>
    if isCallable name then
      match bindings.lookup name, itemValues bindings arguments with
      | some b, some values => (b.apply values).toOption.map some
      | _, _ => none
    else none
termination_by structural e => e

/-- What fields mean behind those that stand before them. -/
def fieldValues [Library] (bindings : Bindings) (before : List (String × Constraint)) :
    List (TokenKind × Expression) → Option (List (String × Constraint))
  | [] => some before
  | (k, e) :: rest =>
    match keyOf? k, value bindings e with
    | some key, some v => fieldValues bindings (putField key v before) rest
    | _, _ => none
termination_by structural fields => fields

/-- What items or arguments mean. -/
def itemValues [Library] (bindings : Bindings) : List Expression → Option (List (Option Constraint))
  | [] => some []
  | e :: rest =>
    match value bindings e, itemValues bindings rest with
    | some v, some values => some (v :: values)
    | _, _ => none
termination_by structural items => items

end

/-- Expressions that mean something mean it as items. -/
theorem itemValues_map [Library] {α : Type} {bindings : Bindings} {f : α → Expression}
    {g : α → Option Constraint} {l : List α}
    (h : ∀ a ∈ l, (f a).value bindings = some (g a)) :
    itemValues bindings (l.map f) = some (l.map g) := by
  induction l with
  | nil => rfl
  | cons a l ih =>
    have hrest := ih fun b hb => h b (by simp [hb])
    simp only [List.map_cons, itemValues, h a (by simp), hrest]

theorem putField_new {key : String} {c : Constraint} {fields : List (String × Constraint)}
    (h : key ∉ fields.map (·.1)) : putField key (some c) fields = fields ++ [(key, c)] := by
  have hothers : fields.filter (fun field => field.1 ≠ key) = fields := by
    rw [List.filter_eq_self]
    intro field hfield
    have hne : field.1 ≠ key := by
      rintro rfl
      exact h (List.mem_map_of_mem hfield)
    simpa using hne
  simp only [putField, hothers]

/-- Fields that are put one by one have different keys. -/
theorem keys_putField (key : String) (value : Option Constraint)
    {fields : List (String × Constraint)} (h : (fields.map (·.1)).Nodup) :
    ((putField key value fields).map (·.1)).Nodup := by
  have hothers : ((fields.filter fun f => f.1 ≠ key).map (·.1)).Nodup :=
    h.sublist (List.filter_sublist.map _)
  cases value with
  | none => exact hothers
  | some c =>
    simp only [putField, List.map_append, List.map_cons, List.map_nil]
    rw [nodup_append_singleton]
    exact ⟨by simp, hothers⟩

theorem lookup_filter_ne (key other : String) (fields : List (String × Constraint)) :
    (fields.filter fun f => f.1 ≠ key).lookup other
      = if other = key then none else fields.lookup other := by
  induction fields with
  | nil => simp
  | cons f rest ih =>
    obtain ⟨k, c⟩ := f
    by_cases hk : k = key
    · subst hk
      rw [List.filter_cons_of_neg (by simp), ih, List.lookup_cons]
      split
      · rfl
      · rename_i hother
        rw [beq_false_of_ne hother]
    · rw [List.filter_cons_of_pos (by simpa using hk), List.lookup_cons, ih, List.lookup_cons]
      cases hother : other == k with
      | true =>
        have hne : other ≠ key := by rwa [eq_of_beq hother]
        rw [if_neg hne, if_neg hne]
      | false => rfl

/-- A field that is put is found, or missing, under its key, and the others are as before. -/
theorem lookup_putField (key other : String) (value : Option Constraint)
    (fields : List (String × Constraint)) :
    (putField key value fields).lookup other
      = if other = key then value else fields.lookup other := by
  cases value with
  | none => exact lookup_filter_ne key other fields
  | some c =>
    have hput : putField key (some c) fields = fields.filter (fun f => f.1 ≠ key) ++ [(key, c)] :=
      rfl
    rw [hput, List.lookup_append, lookup_filter_ne, List.lookup_cons, List.lookup_nil]
    by_cases hother : other = key
    · subst hother
      simp
    · simp [hother, beq_false_of_ne hother]

/-- Expressions that mean something mean it as fields with different keys. -/
theorem fieldValues_map [Library] {α : Type} {bindings : Bindings} (key : α → TokenKind)
    (name : α → String) {f : α → Expression} {g : α → Constraint} {l : List α}
    {before : List (String × Constraint)}
    (hkey : ∀ a ∈ l, keyOf? (key a) = some (name a)) (hnodup : (l.map name).Nodup)
    (hbefore : ∀ a ∈ l, name a ∉ before.map (·.1))
    (h : ∀ a ∈ l, (f a).value bindings = some (some (g a))) :
    fieldValues bindings before (l.map fun a => (key a, f a))
      = some (before ++ l.map fun a => (name a, g a)) := by
  induction l generalizing before with
  | nil => simp [fieldValues]
  | cons a l ih =>
    rw [List.map_cons, List.nodup_cons] at hnodup
    have hnew := putField_new (c := g a) (hbefore a (by simp))
    have hafter : ∀ b ∈ l, name b ∉ (before ++ [(name a, g a)]).map (·.1) := by
      intro b hb
      rw [List.map_append, List.mem_append, not_or]
      refine ⟨hbefore b (by simp [hb]), ?_⟩
      intro hsame
      simp only [List.map_cons, List.map_nil, List.mem_singleton] at hsame
      exact hnodup.1 (hsame ▸ List.mem_map_of_mem hb)
    have hrest := ih (fun b hb => hkey b (by simp [hb])) hnodup.2 hafter
      fun b hb => h b (by simp [hb])
    simp only [List.map_cons, fieldValues, hkey a (by simp), h a (by simp), hnew, hrest,
      List.append_assoc, List.singleton_append]

/-- A call with a meaning calls a function that makes it of what the arguments mean. -/
theorem value_call [Library] {bindings : Bindings} {name : String} {es : List Expression}
    {trailing : Bool} {v : Option Constraint}
    (h : (call name es trailing).value bindings = some v) :
    isCallable name = true ∧ ∃ b vs c, bindings.lookup name = some b
      ∧ itemValues bindings es = some vs ∧ b.apply vs = .ok c ∧ v = some c := by
  simp only [value] at h
  split at h
  · rename_i hname
    split at h
    · rename_i b vs hb hvs
      obtain ⟨c, hc, rfl⟩ := Option.map_eq_some_iff.mp h
      exact ⟨hname, b, vs, c, hb, hvs, ok_of_toOption hc, rfl⟩
    · cases h
  · cases h

/-! ## Use of resources -/

mutual

/-- How many expressions there are in one. -/
def nodes : Expression → Nat
  | word _ => 1
  | string _ => 1
  | number _ => 1
  | signed _ _ => 1
  | object fields _ => 1 + fieldNodes fields
  | array items _ => 1 + itemNodes items
  | call _ arguments _ => 1 + itemNodes arguments
termination_by structural e => e

/-- How many expressions there are in fields. -/
def fieldNodes : List (TokenKind × Expression) → Nat
  | [] => 0
  | (_, e) :: rest => nodes e + fieldNodes rest
termination_by structural fields => fields

/-- How many expressions there are in items or arguments. -/
def itemNodes : List Expression → Nat
  | [] => 0
  | e :: rest => nodes e + itemNodes rest
termination_by structural items => items

end

mutual

/-- How deep containers and calls are nested in an expression. -/
def depth : Expression → Nat
  | word _ => 0
  | string _ => 0
  | number _ => 0
  | signed _ _ => 0
  | object fields _ => 1 + fieldDepth fields
  | array items _ => 1 + itemDepth items
  | call _ arguments _ => 1 + itemDepth arguments
termination_by structural e => e

/-- How deep containers and calls are nested in fields. -/
def fieldDepth : List (TokenKind × Expression) → Nat
  | [] => 0
  | (_, e) :: rest => max (depth e) (fieldDepth rest)
termination_by structural fields => fields

/-- How deep containers and calls are nested in items or arguments. -/
def itemDepth : List Expression → Nat
  | [] => 0
  | e :: rest => max (depth e) (itemDepth rest)
termination_by structural items => items

end

end Expression

end HttpContract.Script
