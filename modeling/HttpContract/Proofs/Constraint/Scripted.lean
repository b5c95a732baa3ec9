import HttpContract.Proofs.Script.Builtin
import HttpContract.Proofs.Script.Run

/-!
# Constraint — the trees that scripts mean

A tree that a script means is `Scripted`: its constants are single values that scripts can hold, the
fields of its objects have different names, its matchers and queries are made again by the calls
that write them, and its two-sided values are of the kinds that the script could call for
(`scripted_of_run`).
-/

namespace HttpContract

open Constraint (Matcher)
open Script (Builtin Bindings Expression TokenKind putField isCallable isWord)
open Script.Expression (fieldKinds itemKinds fieldValues itemValues)

/-- Whether a value is neither an array nor an object. -/
def Json.isScalar : Json → Bool
  | .array _ => false
  | .object _ => false
  | _ => true

namespace Constraint

variable {sides : Sidedness → Prop}

/-- The trees that scripts mean, with two-sided values of some kinds. -/
inductive Scripted [Library] (sides : Sidedness → Prop) : Constraint → Prop where
  | constant {v : Json} (hscalar : v.isScalar = true) (hv : v.Scripted) :
    Scripted sides (.constant v)
  | object {fields : List (String × Constraint)} (hkeys : (fields.map (·.1)).Nodup)
    (h : ∀ f ∈ fields, Scripted sides f.2) : Scripted sides (.object fields)
  | array {items : List Constraint} (h : ∀ c ∈ items, Scripted sides c) :
    Scripted sides (.array items)
  | matcher {m : Matcher} (h : m.Scripted) : Scripted sides (.matcher m)
  | extraction {e : Extraction} (h : Extraction.parse? e.expression = some e) :
    Scripted sides (.extraction e)
  | dual {s : Sidedness} {stub test : Option Constraint} (hs : sides s)
    (hstub : ∀ c ∈ stub, Scripted sides c) (htest : ∀ c ∈ test, Scripted sides c) :
    Scripted sides (.dual s stub test)

/-! ## One-sided values -/

/-- Whether a tree is a value with one fixed side. -/
def isOneSided : Constraint → Bool
  | .dual .stubOnly _ _ => true
  | .dual .testOnly _ _ => true
  | _ => false

theorem anyField_false {test : Constraint → Bool} {fields : List (String × Constraint)}
    (h : anyField test fields = false) : ∀ f ∈ fields, f.2.any test = false := by
  induction fields with
  | nil => simp
  | cons f rest ih =>
    rw [anyField, Bool.or_eq_false_iff] at h
    intro g hg
    rcases List.mem_cons.mp hg with rfl | hg
    · exact h.1
    · exact ih h.2 g hg

theorem anyItem_false {test : Constraint → Bool} {items : List Constraint}
    (h : anyItem test items = false) : ∀ c ∈ items, c.any test = false := by
  induction items with
  | nil => simp
  | cons c rest ih =>
    rw [anyItem, Bool.or_eq_false_iff] at h
    intro d hd
    rcases List.mem_cons.mp hd with rfl | hd
    · exact h.1
    · exact ih h.2 d hd

theorem anyBranch_false {test : Constraint → Bool} {branch : Option Constraint}
    (h : anyBranch test branch = false) : ∀ c ∈ branch, c.any test = false := by
  cases branch with
  | none => simp
  | some c =>
    intro d hd
    cases hd
    exact h

/-- A tree without one-sided values has values for both sides only. -/
theorem Scripted.bothSided [Library] {c : Constraint} (h : c.Scripted sides)
    (hany : c.any isOneSided = false) : c.Scripted (· = .both) := by
  induction h with
  | constant hscalar hv => exact .constant hscalar hv
  | object hkeys _ ih =>
    simp only [any, Bool.or_eq_false_iff] at hany
    exact .object hkeys fun f hf => ih f hf (anyField_false hany.2 f hf)
  | array _ ih =>
    simp only [any, Bool.or_eq_false_iff] at hany
    exact .array fun c hc => ih c hc (anyItem_false hany.2 c hc)
  | matcher h => exact .matcher h
  | extraction h => exact .extraction h
  | @dual s stub test _ _ _ ihstub ihtest =>
    simp only [any, Bool.or_eq_false_iff] at hany
    obtain ⟨⟨hside, hstub⟩, htest⟩ := hany
    have hboth : s = .both := by cases s <;> simp_all [isOneSided]
    exact .dual hboth (fun c hc => ihstub c hc (anyBranch_false hstub c hc))
      fun c hc => ihtest c hc (anyBranch_false htest c hc)

/-! ## Literals -/

theorem literalItems?_scripted {items : List Constraint} {vs : List Json}
    (ih : ∀ c ∈ items, ∀ v, c.literal? = some v → v.Scripted)
    (h : literalItems? items = some vs) : ∀ v ∈ vs, v.Scripted := by
  induction items generalizing vs with
  | nil =>
    cases h
    simp
  | cons c rest ihrest =>
    rw [literalItems?] at h
    split at h
    · rename_i v more hv hmore
      cases h
      intro w hw
      rcases List.mem_cons.mp hw with rfl | hw
      · exact ih c (by simp) w hv
      · exact ihrest (fun d hd => ih d (by simp [hd])) hmore w hw
    · cases h

theorem literalFields?_scripted {fields : List (String × Constraint)} {vs : List (String × Json)}
    (ih : ∀ f ∈ fields, ∀ v, f.2.literal? = some v → v.Scripted)
    (h : literalFields? fields = some vs) :
    vs.map (·.1) = fields.map (·.1) ∧ ∀ f ∈ vs, f.2.Scripted := by
  induction fields generalizing vs with
  | nil =>
    cases h
    simp
  | cons f rest ihrest =>
    obtain ⟨k, c⟩ := f
    rw [literalFields?] at h
    split at h
    · rename_i v more hv hmore
      cases h
      obtain ⟨hkeys, hscripted⟩ := ihrest (fun d hd => ih d (by simp [hd])) hmore
      refine ⟨by simp [hkeys], ?_⟩
      intro g hg
      rcases List.mem_cons.mp hg with rfl | hg
      · exact ih (k, c) (by simp) v hv
      · exact hscripted g hg
    · cases h

/-- The literal of a tree that a script means is a value that a script can hold. -/
theorem Scripted.literal [Library] {c : Constraint} (h : c.Scripted sides) {v : Json}
    (hv : c.literal? = some v) : v.Scripted := by
  induction h generalizing v with
  | constant _ hscripted =>
    cases hv
    exact hscripted
  | object hkeys _ ih =>
    rw [literal?, Option.map_eq_some_iff] at hv
    obtain ⟨vs, hvs, rfl⟩ := hv
    obtain ⟨hsame, hscripted⟩ := literalFields?_scripted (fun f hf v => ih f hf) hvs
    exact .object (hsame ▸ hkeys) hscripted
  | array _ ih =>
    rw [literal?, Option.map_eq_some_iff] at hv
    obtain ⟨vs, hvs, rfl⟩ := hv
    exact .array (literalItems?_scripted (fun c hc v => ih c hc) hvs)
  | matcher => cases hv
  | extraction => cases hv
  | dual => cases hv

/-! ## What scripts mean -/

/-- Fields with different names, whose trees are ones that scripts mean. -/
structure ScriptedFields [Library] (sides : Sidedness → Prop)
    (fields : List (String × Constraint)) : Prop where
  keys : (fields.map (·.1)).Nodup
  fields : ∀ f ∈ fields, f.2.Scripted sides

/-- A property that expressions keep: the single values that scripts can hold have it, and what is
made of trees with it has it, be it an object without repeated names, an array or what one of the
calls that the tokens make gives. -/
structure Kept [Library] (P : Constraint → Prop) (bindings : Bindings) (ks : List TokenKind) :
    Prop where
  lexical : ∀ k ∈ ks, k.Lexical
  constant : ∀ v : Json, v.isScalar = true → v.Scripted → P (.constant v)
  object : ∀ fields : List (String × Constraint), (fields.map (·.1)).Nodup →
    (∀ f ∈ fields, P f.2) → P (.object fields)
  array : ∀ items : List Constraint, (∀ c ∈ items, P c) → P (.array items)
  call : ∀ name b arguments c, Script.CallsIn ks name → bindings.lookup name = some b →
    (∀ d, some d ∈ arguments → P d) → b.apply arguments = .ok c → P c

theorem Kept.within [Library] {P : Constraint → Prop} {bindings : Bindings} {ks ls : List TokenKind}
    (h : Kept P bindings ks) (hls : ls <:+: ks) : Kept P bindings ls where
  lexical k hk := h.lexical k (hls.subset hk)
  constant := h.constant
  object := h.object
  array := h.array
  call name b arguments c hcall := h.call name b arguments c (hcall.trans hls)

/-- Fields with different names, whose trees have a property. -/
def FieldsWith (P : Constraint → Prop) (fields : List (String × Constraint)) : Prop :=
  (fields.map (·.1)).Nodup ∧ ∀ f ∈ fields, P f.2

/-- A property that parts of a tree inherit. The single values that scripts can hold have it, and it
passes from objects and arrays to what is in them. -/
structure Inherited (P : Constraint → Prop) : Prop where
  constant : ∀ v : Json, v.isScalar = true → v.Scripted → P (.constant v)
  object : ∀ fields, P (.object fields) → FieldsWith P fields
  array : ∀ items, P (.array items) → ∀ c ∈ items, P c

theorem inherited_scripted [Library] : Inherited (Scripted sides) where
  constant _ := .constant
  object _ h := by
    cases h with
    | object hkeys hfields => exact ⟨hkeys, hfields⟩
  array _ h := by
    cases h with
    | array hitems => exact hitems

theorem FieldsWith.putField {P : Constraint → Prop} {fields : List (String × Constraint)}
    (h : FieldsWith P fields) (key : String) {value : Option Constraint}
    (hvalue : ∀ c ∈ value, P c) : FieldsWith P (Script.putField key value fields) := by
  refine ⟨Script.Expression.keys_putField key value h.1, ?_⟩
  have hothers : ∀ f ∈ fields.filter (fun field => field.1 ≠ key), P f.2 := fun f hf =>
    h.2 f (List.mem_of_mem_filter hf)
  cases value with
  | none => exact hothers
  | some c =>
    intro f hf
    rcases List.mem_append.mp hf with hf | hf
    · exact hothers f hf
    · obtain rfl := List.mem_singleton.mp hf
      exact hvalue c rfl

theorem scripted_integer {n : Json.WordInt} (h : (TokenKind.number (.integer n)).Lexical) :
    n.Scripted ∧ (Json.WordInt.ofInt (-n.val)).Scripted := by
  obtain ⟨hlower, hupper⟩ := h
  simp only [Json.WordInt.Scripted, Json.WordInt.ofInt]
  omega

theorem scripted_number {n : Json.Number} (h : (TokenKind.number n).Lexical) (negative : Bool) :
    (Json.number (if negative then Script.negated n else n)).Scripted := by
  cases n with
  | integer n =>
    obtain ⟨hn, hopposite⟩ := scripted_integer h
    cases negative
    · exact .integer hn
    · exact .integer hopposite
  | float x => cases negative <;> exact .float _

theorem scripted_firstField [Library] {fields : List (String × Constraint)} {keys : List String}
    {c : Constraint} (hfields : ∀ f ∈ fields, f.2.Scripted sides)
    (h : Builtin.firstField? fields keys = some c) : c.Scripted sides := by
  obtain ⟨key, -, hkey⟩ := List.exists_of_findSome?_eq_some h
  exact hfields _ (mem_of_lookup hkey)

/-- A call with arguments that scripts mean makes a matcher, a query or a two-sided value with
fields of an argument. -/
theorem apply_cases [Library] {b : Builtin} {arguments : List (Option Constraint)} {c : Constraint}
    (harguments : ∀ d, some d ∈ arguments → d.Scripted sides) (h : b.apply arguments = .ok c) :
    (∃ m : Matcher, c = .matcher m ∧ m.Scripted)
      ∨ (∃ e : Extraction, b = .jsonpath ∧ c = .extraction e
        ∧ Extraction.parse? e.expression = some e)
      ∨ ∃ s fields, b.sidedness? = some s ∧ some (.object fields) ∈ arguments
        ∧ c = .dual s (Builtin.firstField? fields Builtin.stubKeys)
          (Builtin.firstField? fields Builtin.testKeys) := by
  refine Builtin.make_cases ?_ (Builtin.make_of_apply h)
  rintro a ha d rfl v hv
  exact (harguments d ha).literal hv

/-- A call makes a tree that scripts mean from such trees. -/
theorem scripted_apply [Library] {b : Builtin} {arguments : List (Option Constraint)}
    {c : Constraint} (harguments : ∀ d, some d ∈ arguments → d.Scripted sides)
    (hsides : ∀ s, b.sidedness? = some s → sides s) (h : b.apply arguments = .ok c) :
    c.Scripted sides := by
  rcases apply_cases harguments h with
    ⟨m, rfl, hm⟩ | ⟨e, -, rfl, he⟩ | ⟨s, fields, hs, hfields, rfl⟩
  · exact .matcher hm
  · exact .extraction he
  · cases harguments _ hfields with
    | object _ hscripted =>
      exact .dual (hsides s hs) (fun c hc => scripted_firstField hscripted hc)
        fun c hc => scripted_firstField hscripted hc

variable {P : Constraint → Prop} {bindings : Bindings}

mutual

/-- What an expression means has what expressions keep. -/
theorem value_kept [Library] (e : Expression) (hks : Kept P bindings e.kinds) {c : Constraint}
    (h : e.value bindings = some (some c)) : P c :=
  match e with
  | .word name => by
    simp only [Expression.value, Option.ite_none_right_eq_some] at h
    -- of the words only null, true and false mean something
    have hword := h.2
    unfold Script.wordValue? at hword
    split at hword <;> cases hword
    · exact hks.constant _ rfl .null
    · exact hks.constant _ rfl (.bool true)
    · exact hks.constant _ rfl (.bool false)
  | .string x => by
    cases h
    exact hks.constant _ rfl (.string x)
  | .number n => by
    cases h
    exact hks.constant _ rfl
      (scripted_number (hks.lexical _ (by simp [Expression.kinds])) false)
  | .signed negative n => by
    cases h
    exact hks.constant _ rfl
      (scripted_number (hks.lexical _ (by simp [Expression.kinds])) negative)
  | .object fields trailing => by
    simp only [Expression.value, Option.map_eq_some_iff, Option.some.injEq] at h
    obtain ⟨vs, hvs, rfl⟩ := h
    -- fields are put one by one, so their names stay different
    have hnone : FieldsWith P [] := ⟨by simp, by simp⟩
    have hfields := fieldValues_kept fields trailing
      (hks.within ⟨[.symbol .leftBrace], [.symbol .rightBrace], by simp [Expression.kinds]⟩)
      hnone hvs
    exact hks.object vs hfields.1 hfields.2
  | .array items trailing => by
    simp only [Expression.value, Option.map_eq_some_iff, Option.some.injEq] at h
    obtain ⟨vs, hvs, rfl⟩ := h
    have hitems := itemValues_kept items trailing
      (hks.within ⟨[.symbol .leftBracket], [.symbol .rightBracket], by simp [Expression.kinds]⟩) hvs
    refine hks.array _ fun d hd => ?_
    obtain ⟨v, hv, rfl⟩ := List.mem_map.mp hd
    cases v with
    | none => exact hks.constant _ rfl .null
    | some d => exact hitems d hv
  | .call name arguments trailing => by
    obtain ⟨-, b, vs, d, hb, hvs, happly, hd⟩ := Expression.value_call h
    cases hd
    have harguments := itemValues_kept arguments trailing
      (hks.within ⟨[.identifier name, .symbol .leftParen], [.symbol .rightParen],
        by simp [Expression.kinds]⟩) hvs
    refine hks.call name b vs c ?_ hb harguments happly
    exact ⟨[], itemKinds trailing arguments ++ [.symbol .rightParen], by simp [Expression.kinds]⟩
termination_by structural e

theorem fieldValues_kept [Library] (fields : List (TokenKind × Expression)) (trailing : Bool)
    (hks : Kept P bindings (fieldKinds trailing fields))
    {before vs : List (String × Constraint)} (hbefore : FieldsWith P before)
    (h : fieldValues bindings before fields = some vs) : FieldsWith P vs :=
  match fields with
  | [] => by
    cases h
    exact hbefore
  | (k, e) :: rest => by
    rw [fieldValues] at h
    split at h
    · rename_i key v _ hv
      have hvalue : ∀ c ∈ v, P c := by
        intro c hc
        refine value_kept e (hks.within ?_) (hc ▸ hv)
        exact ⟨[k, .symbol .colon], Script.separator trailing rest ++ fieldKinds trailing rest,
          by simp [fieldKinds]⟩
      refine fieldValues_kept rest trailing (hks.within ?_) (hbefore.putField key hvalue) h
      exact ⟨k :: .symbol .colon :: (e.kinds ++ Script.separator trailing rest), [],
        by simp [fieldKinds]⟩
    · cases h
termination_by structural fields

theorem itemValues_kept [Library] (items : List Expression) (trailing : Bool)
    (hks : Kept P bindings (itemKinds trailing items))
    {vs : List (Option Constraint)} (h : itemValues bindings items = some vs) :
    ∀ c, some c ∈ vs → P c :=
  match items with
  | [] => by
    cases h
    simp
  | e :: rest => by
    rw [itemValues] at h
    split at h
    · rename_i v more hv hmore
      cases h
      intro c hc
      rcases List.mem_cons.mp hc with rfl | hc
      · refine value_kept e (hks.within ?_) hv
        exact ⟨[], Script.separator trailing rest ++ itemKinds trailing rest, by simp [itemKinds]⟩
      · refine itemValues_kept rest trailing (hks.within ?_) hmore c hc
        exact ⟨e.kinds ++ Script.separator trailing rest, [], by simp [itemKinds]⟩
    · cases h
termination_by structural items

end

/-! ## What running gives -/

/-- What a script exports has what the expressions of the script keep. -/
theorem run_kept [Library] {limits : Script.Limits} {source : String} {c : Constraint}
    (hkept : (∀ k ∈ Script.tokensOf source, k.Lexical) → Kept P bindings (Script.tokensOf source))
    (h : Script.run limits bindings source = .ok c) : P c := by
  obtain ⟨e, hv, hscript, -⟩ := Script.run_sound h
  have hlexical : ∀ k ∈ Script.tokensOf source, k.Lexical := by
    intro k hk
    obtain ⟨t, ht, rfl⟩ := List.mem_map.mp hk
    exact Script.lexical_readTokens _ _ t ht
  exact value_kept e ((hkept hlexical).within hscript.kinds_within) hv

/-- A script exports a tree that scripts mean, with two-sided values of the kinds that it calls
for. -/
theorem scripted_of_run [Library] {limits : Script.Limits} {source : String} {c : Constraint}
    (hcalls : ∀ name b s, Script.Calls source name → bindings.lookup name = some b →
      b.sidedness? = some s → sides s)
    (h : Script.run limits bindings source = .ok c) : c.Scripted sides := by
  refine run_kept (fun hlexical => ?_) h
  refine ⟨hlexical, fun v => .constant, fun fields => .object, fun items => .array, ?_⟩
  intro name b arguments d hcall hb harguments happly
  exact scripted_apply harguments (fun s hs => hcalls name b s hcall hb hs) happly

end Constraint

end HttpContract
