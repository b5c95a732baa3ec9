import HttpContract.Library.Simple
import HttpContract.Proofs.Constraint.DateWindow
import HttpContract.Proofs.Constraint.Scripted
import HttpContract.Proofs.Constraint.Settled
import HttpContract.Proofs.JsonPath.Selected
import HttpContract.Proofs.Script.Grammar

/-!
# Constraint — well-formed trees

Every tree that a script exports is well formed in each of its nodes: an object has the fields of a
literal in the script, the last with each key (`lastFields`), a constant is a single value
(`Json.Single`), and a matcher has a choice and dates in order (`Matcher.WellFormed`). Evaluation
makes every node of its result of a node of the tree (`stems_of_evaluate`), so none of this is lost
(`run_wellFormed`).
-/

namespace HttpContract

open Constraint (Matcher)
open Script (Builtin Bindings Expression TokenKind keyOf? putField)
open Script.Expression (fieldValues itemValues)

/-! ## Nodes -/

namespace Constraint

/-- The nodes of a tree: itself, and those of its fields, its items and both of its sides. -/
inductive HasNode : Constraint → Constraint → Prop where
  | self (c : Constraint) : HasNode c c
  | field {fields : List (String × Constraint)} {f : String × Constraint} {d : Constraint}
    (hf : f ∈ fields) (h : HasNode f.2 d) : HasNode (.object fields) d
  | item {items : List Constraint} {c d : Constraint} (hc : c ∈ items) (h : HasNode c d) :
    HasNode (.array items) d
  | stub {s : Sidedness} {c d : Constraint} {test : Option Constraint} (h : HasNode c d) :
    HasNode (.dual s (some c) test) d
  | test {s : Sidedness} {stub : Option Constraint} {c d : Constraint} (h : HasNode c d) :
    HasNode (.dual s stub (some c)) d

/-- All nodes of a tree that scripts mean are such trees. -/
theorem Scripted.node [Library] {sides : Sidedness → Prop} {c d : Constraint} (h : c.Scripted sides)
    (hd : c.HasNode d) : d.Scripted sides := by
  induction hd with
  | self => exact h
  | field hf _ ih =>
    cases h with
    | object _ hfields => exact ih (hfields _ hf)
  | item hc _ ih =>
    cases h with
    | array hitems => exact ih (hitems _ hc)
  | stub _ ih =>
    cases h with
    | dual _ hstub _ => exact ih (hstub _ rfl)
  | test _ ih =>
    cases h with
    | dual _ _ htest => exact ih (htest _ rfl)

end Constraint

/-- The expressions in one: itself, and those in its fields, its items or its arguments. -/
inductive Script.Expression.HasPart : Expression → Expression → Prop where
  | self (e : Expression) : HasPart e e
  | field {fields : List (TokenKind × Expression)} {trailing : Bool} {f : TokenKind × Expression}
    {e : Expression} (hf : f ∈ fields) (h : HasPart f.2 e) : HasPart (.object fields trailing) e
  | item {items : List Expression} {trailing : Bool} {i e : Expression} (hi : i ∈ items)
    (h : HasPart i e) : HasPart (.array items trailing) e
  | argument {name : String} {arguments : List Expression} {trailing : Bool} {a e : Expression}
    (ha : a ∈ arguments) (h : HasPart a e) : HasPart (.call name arguments trailing) e

/-! ## Well-formed nodes -/

/-- Single values: null, truth values, texts, whole numbers that fit a signed word and are not the
least of them, and doubles, which are finite. -/
inductive Json.Single : Json → Prop where
  | null : Single .null
  | bool (b : Bool) : Single (.bool b)
  | string (s : String) : Single (.string s)
  | integer {n : WordInt} (hlower : -9223372036854775808 < n.val)
    (hupper : n.val < 9223372036854775808) : Single (.number (.integer n))
  | float (x : Binary64) : Single (.number (.float x))

theorem Json.Scripted.single {v : Json} (h : v.Scripted) (hscalar : v.isScalar = true) :
    v.Single := by
  cases h with
  | null => exact .null
  | bool b => exact .bool b
  | string s => exact .string s
  | integer hn => exact .integer hn.1 hn.2
  | float x => exact .float x
  | array => cases hscalar
  | object => cases hscalar

/-- There is a choice, and no choice has an object with a key twice. The ends of a range of dates
are in order, and there are two of them where a date lies between them. -/
def Constraint.Matcher.WellFormed : Matcher → Prop
  | .anyOf choices => choices ≠ [] ∧ ∀ v ∈ choices, v.Distinct
  | .notAnyOf choices => choices ≠ [] ∧ ∀ v ∈ choices, v.Distinct
  | .date rule => rule.Sound
  | _ => True

/-- A matcher that its own call makes is well formed, as its call checks that. -/
theorem Constraint.Matcher.Scripted.wellFormed [Library] {m : Matcher} (h : m.Scripted) :
    m.WellFormed := by
  have hdistinct : ∀ v ∈ m.arguments, v.Distinct := fun v hv => (h.arguments v hv).distinct
  have hmade := h.made
  cases m with
  | anyOf choices =>
    obtain ⟨vs, hvs, hsame⟩ := map_ok.mp hmade
    cases hsame
    exact ⟨(Builtin.someChoices_ok.mp hvs).2, hdistinct⟩
  | notAnyOf choices =>
    obtain ⟨vs, hvs, hsame⟩ := map_ok.mp hmade
    cases hsame
    exact ⟨(Builtin.someChoices_ok.mp hvs).2, hdistinct⟩
  | date rule =>
    have hdate : Builtin.makeDate (some (.ofJson rule.options)) = .ok (.matcher (.date rule)) :=
      hmade
    simp only [Builtin.makeDate, bind_ok] at hdate
    obtain ⟨fields, -, period, -, format, -, earliest, -, latest, -, hdate⟩ := hdate
    split at hdate
    · rename_i rule' hrule
      cases pure_ok.mp hdate
      exact DateRule.ofOptions_sound hrule
    · cases hdate
  | _ => trivial

/-! ## Objects and their literals -/

/-- What stays of fields that are written one after the other: the last with each key, where it
stands, if it means something. -/
def Script.lastFields : List (String × Option Constraint) → List (String × Constraint)
  | [] => []
  | (key, value) :: rest =>
    if key ∈ rest.map (·.1) then lastFields rest
    else (value.map (key, ·)).toList ++ lastFields rest

namespace Script.Expression

variable {bindings : Bindings}

/-- What a field of a literal is read as: its key, and what its expression means. -/
def Member [Library] (bindings : Bindings) (field : TokenKind × Expression)
    (member : String × Option Constraint) : Prop :=
  keyOf? field.1 = some member.1 ∧ field.2.value bindings = some member.2

theorem putField_eq_append (key : String) (value : Option Constraint)
    (fields : List (String × Constraint)) :
    putField key value fields
      = fields.filter (fun f => f.1 ≠ key) ++ (value.map (key, ·)).toList := by
  cases value with
  | none => exact (List.append_nil _).symm
  | some c => rfl

/-- Fields that are put one by one replace those with their keys, and the last with each key
stay. -/
theorem fieldValues_eq_last [Library] {fields : List (TokenKind × Expression)}
    {before vs : List (String × Constraint)} (h : fieldValues bindings before fields = some vs) :
    ∃ members, List.Forall₂ (Member bindings) fields members
      ∧ vs = before.filter (fun f => f.1 ∉ members.map (·.1)) ++ lastFields members := by
  induction fields generalizing before with
  | nil =>
    cases h
    exact ⟨[], .nil, by simp [lastFields]⟩
  | cons f rest ih =>
    obtain ⟨k, e⟩ := f
    rw [fieldValues] at h
    split at h
    · rename_i key v hkey hv
      obtain ⟨members, hmembers, rfl⟩ := ih h
      refine ⟨(key, v) :: members, .cons ⟨hkey, hv⟩ hmembers, ?_⟩
      have hbefore : before.filter (fun f => f.1 ∉ ((key, v) :: members).map (·.1))
          = (before.filter fun f => f.1 ≠ key).filter fun f => f.1 ∉ members.map (·.1) := by
        rw [List.filter_filter]
        refine List.filter_congr fun f _ => ?_
        rw [Bool.eq_iff_iff]
        simp only [decide_eq_true_eq, Bool.and_eq_true, List.map_cons, List.mem_cons, not_or]
        exact and_comm
      rw [putField_eq_append, List.filter_append, hbefore, List.append_assoc]
      congr 1
      rw [lastFields]
      -- the field itself stays unless its key comes again
      split
      · rename_i hagain
        cases v <;> simp_all
      · rename_i hlast
        cases v <;> simp_all
    · cases h

end Script.Expression

/-! ## Calls -/

namespace Script.Builtin

/-- A call makes a matcher, a query or a two-sided value with fields of an argument. -/
theorem made_cases [Library] {b : Builtin} {arguments : List (Option Constraint)} {c : Constraint}
    (h : b.apply arguments = .ok c) :
    (∃ m, c = .matcher m) ∨ (∃ e, c = .extraction e)
      ∨ ∃ s fields, some (.object fields) ∈ arguments
        ∧ c = .dual s (firstField? fields stubKeys) (firstField? fields testKeys) := by
  have hmade := make_of_apply h
  have hnumber : ∀ kind, makeNumber kind arguments.head?.join = .ok c → ∃ m, c = .matcher m := by
    intro kind hnumber
    simp only [makeNumber, bind_ok, pure_ok] at hnumber
    obtain ⟨fields, -, limits, -, rfl⟩ := hnumber
    exact ⟨_, rfl⟩
  have hdual : ∀ s, dual s arguments.head?.join = .ok c → ∃ s fields,
      some (.object fields) ∈ arguments
        ∧ c = .dual s (firstField? fields stubKeys) (firstField? fields testKeys) := by
    intro s hs
    exact ⟨s, dual_ok hs⟩
  cases b with
  | regex => exact .inl ((makeRegex_scripted hmade).imp fun m hm => hm.1)
  | integer => exact .inl (hnumber _ hmade)
  | float => exact .inl (hnumber _ hmade)
  | date => exact .inl ((makeDate_scripted hmade).imp fun m hm => hm.1)
  | text => exact .inl ((makeText_scripted hmade).imp fun m hm => hm.1)
  | name | email | phone | address | uuid4 =>
    cases hmade
    exact .inl ⟨_, rfl⟩
  | anyOf | notAnyOf =>
    obtain ⟨vs, -, rfl⟩ := map_ok.mp hmade
    exact .inl ⟨_, rfl⟩
  | jsonpath => exact .inr (.inl ((makeExtraction_ok hmade).imp fun e he => he.1))
  | value | stubValue | testValue => exact .inr (.inr (hdual _ hmade))

theorem mem_of_firstField? {fields : List (String × Constraint)} {keys : List String}
    {c : Constraint} (h : firstField? fields keys = some c) : ∃ f ∈ fields, f.2 = c := by
  obtain ⟨key, -, hkey⟩ := List.exists_of_findSome?_eq_some h
  exact ⟨(key, c), mem_of_lookup hkey, rfl⟩

/-- An object in what a call makes is an object in one of its arguments. -/
theorem node_of_apply [Library] {b : Builtin} {arguments : List (Option Constraint)}
    {c : Constraint} {fields : List (String × Constraint)} (h : b.apply arguments = .ok c)
    (hnode : c.HasNode (.object fields)) :
    ∃ d, some d ∈ arguments ∧ d.HasNode (.object fields) := by
  rcases made_cases h with ⟨m, rfl⟩ | ⟨e, rfl⟩ | ⟨s, sides, hsides, rfl⟩
  · cases hnode
  · cases hnode
  · refine ⟨_, hsides, ?_⟩
    generalize hstub : firstField? sides stubKeys = stub at hnode
    generalize htest : firstField? sides testKeys = test at hnode
    cases hnode with
    | stub hnode =>
      obtain ⟨f, hf, rfl⟩ := mem_of_firstField? hstub
      exact .field hf hnode
    | test hnode =>
      obtain ⟨f, hf, rfl⟩ := mem_of_firstField? htest
      exact .field hf hnode

end Script.Builtin

/-! ## Objects in expressions -/

namespace Script.Expression

variable {bindings : Bindings} {inner : List (String × Constraint)}

/-- An expression has the literal of an object in it. -/
def HasLiteral [Library] (bindings : Bindings) (inner : List (String × Constraint))
    (e : Expression) : Prop :=
  ∃ fields trailing, e.HasPart (.object fields trailing)
    ∧ (object fields trailing).value bindings = some (some (.object inner))

mutual

/-- Every object in what an expression means is what a literal in the expression means. -/
theorem literal_of_node [Library] (e : Expression) {c : Constraint}
    (h : e.value bindings = some (some c)) (hnode : c.HasNode (.object inner)) :
    e.HasLiteral bindings inner :=
  match e with
  | .word name => by
    simp only [value, Option.ite_none_right_eq_some] at h
    have hword := h.2
    unfold Script.wordValue? at hword
    split at hword <;> cases hword <;> cases hnode
  | .string x => by
    cases h
    cases hnode
  | .number n => by
    cases h
    cases hnode
  | .signed negative n => by
    cases h
    cases hnode
  | .object fields trailing => by
    have hself := h
    simp only [value, Option.map_eq_some_iff, Option.some.injEq] at h
    obtain ⟨vs, hvs, rfl⟩ := h
    cases hnode with
    | self => exact ⟨fields, trailing, .self _, hself⟩
    | field hf hnode =>
      obtain ⟨g, hg, literal, more, hpart, hvalue⟩ :=
        (literal_of_fields fields hvs hf hnode).resolve_left nofun
      exact ⟨literal, more, .field hg hpart, hvalue⟩
  | .array items trailing => by
    simp only [value, Option.map_eq_some_iff, Option.some.injEq] at h
    obtain ⟨vs, hvs, rfl⟩ := h
    cases hnode with
    | item hc hnode =>
      obtain ⟨v, hv, rfl⟩ := List.mem_map.mp hc
      cases v with
      | none => cases hnode
      | some d =>
        obtain ⟨i, hi, literal, more, hpart, hvalue⟩ := literal_of_items items hvs hv hnode
        exact ⟨literal, more, .item hi hpart, hvalue⟩
  | .call name arguments trailing => by
    obtain ⟨-, b, vs, d, -, hvs, happly, hd⟩ := value_call h
    cases hd
    obtain ⟨d, hd, hnode⟩ := Builtin.node_of_apply happly hnode
    obtain ⟨a, ha, literal, more, hpart, hvalue⟩ := literal_of_items arguments hvs hd hnode
    exact ⟨literal, more, .argument ha hpart, hvalue⟩
termination_by structural e

theorem literal_of_fields [Library] (fields : List (TokenKind × Expression))
    {before vs : List (String × Constraint)} (h : fieldValues bindings before fields = some vs)
    {f : String × Constraint} (hf : f ∈ vs) (hnode : f.2.HasNode (.object inner)) :
    f ∈ before ∨ ∃ g ∈ fields, g.2.HasLiteral bindings inner :=
  match fields with
  | [] => by
    cases h
    exact .inl hf
  | (k, e) :: rest => by
    rw [fieldValues] at h
    split at h
    · rename_i key v _ hv
      rcases literal_of_fields rest h hf hnode with hput | ⟨g, hg, hliteral⟩
      · rw [putField_eq_append, List.mem_append] at hput
        rcases hput with hbefore | hnew
        · exact .inl (List.mem_of_mem_filter hbefore)
        · simp only [Option.mem_toList, Option.map_eq_some_iff] at hnew
          obtain ⟨c, rfl, rfl⟩ := hnew
          exact .inr ⟨(k, e), List.mem_cons_self, literal_of_node e hv hnode⟩
      · exact .inr ⟨g, List.mem_cons_of_mem _ hg, hliteral⟩
    · cases h
termination_by structural fields

theorem literal_of_items [Library] (items : List Expression) {vs : List (Option Constraint)}
    (h : itemValues bindings items = some vs) {c : Constraint} (hc : some c ∈ vs)
    (hnode : c.HasNode (.object inner)) : ∃ i ∈ items, i.HasLiteral bindings inner :=
  match items with
  | [] => by
    cases h
    cases hc
  | e :: rest => by
    rw [itemValues] at h
    split at h
    · rename_i v more hv hmore
      cases h
      rcases List.mem_cons.mp hc with rfl | hc
      · exact ⟨e, List.mem_cons_self, literal_of_node e hv hnode⟩
      · obtain ⟨i, hi, hliteral⟩ := literal_of_items rest hmore hc hnode
        exact ⟨i, List.mem_cons_of_mem _ hi, hliteral⟩
    · cases h
termination_by structural items

end

end Script.Expression

/-! ## Evaluation -/

namespace Constraint

variable {ctx : Context}

/-- What a node of an evaluated tree is made of: a node of the tree, or a side that is missing. -/
inductive Stems [Library] (ctx : Context) (c : Constraint) : Constraint → Prop where
  | missing : Stems ctx c (.constant .null)
  | constant {v : Json} (h : c.HasNode (.constant v)) : Stems ctx c (.constant v)
  | selected {e : Extraction} (h : c.HasNode (.extraction e)) :
    Stems ctx c (.constant (.array (e.select ctx.document)))
  | object {fields : List (String × Constraint)} (h : c.HasNode (.object fields)) :
    Stems ctx c (.object (evaluateFields ctx fields))
  | array {items : List Constraint} (h : c.HasNode (.array items)) :
    Stems ctx c (.array (evaluateItems ctx items))
  | matcher {m : Matcher} (h : c.HasNode (.matcher m)) : Stems ctx c (.matcher m)

/-- What stems from a node of a tree stems from the tree. -/
theorem Stems.within [Library] {b c d : Constraint} (h : Stems ctx c d)
    (hc : ∀ e, c.HasNode e → b.HasNode e) : Stems ctx b d := by
  cases h with
  | missing => exact .missing
  | constant h => exact .constant (hc _ h)
  | selected h => exact .selected (hc _ h)
  | object h => exact .object (hc _ h)
  | array h => exact .array (hc _ h)
  | matcher h => exact .matcher (hc _ h)

mutual

/-- Every node of an evaluated tree is made of a node of the tree. -/
theorem stems_of_evaluate [Library] (ctx : Context) (c : Constraint) {d : Constraint}
    (h : (c.evaluate ctx).HasNode d) : Stems ctx c d :=
  match c with
  | .constant v => by
    cases h
    exact .constant (.self _)
  | .object fields => by
    cases h with
    | self => exact .object (.self _)
    | field hf h =>
      obtain ⟨g, hg, hstems⟩ := stems_of_evaluateFields ctx fields hf h
      exact hstems.within fun e he => .field hg he
  | .array items => by
    cases h with
    | self => exact .array (.self _)
    | item hc h =>
      obtain ⟨b, hb, hstems⟩ := stems_of_evaluateItems ctx items hc h
      exact hstems.within fun e he => .item hb he
  | .matcher m => by
    cases h
    exact .matcher (.self _)
  | .extraction e => by
    cases h
    exact .selected (.self _)
  | .dual sidedness stub test => by
    have hside : (evaluateBranch ctx stub).HasNode d ∨ (evaluateBranch ctx test).HasNode d := by
      cases sidedness with
      | both =>
        rw [evaluate] at h
        split at h
        · exact .inl h
        · exact .inr h
      | stubOnly => exact .inl h
      | testOnly => exact .inr h
    rcases hside with h | h
    · rcases stems_of_evaluateBranch ctx stub h with rfl | ⟨b, rfl, hstems⟩
      · exact .missing
      · exact hstems.within fun e he => .stub he
    · rcases stems_of_evaluateBranch ctx test h with rfl | ⟨b, rfl, hstems⟩
      · exact .missing
      · exact hstems.within fun e he => .test he
termination_by structural c

theorem stems_of_evaluateFields [Library] (ctx : Context) (fields : List (String × Constraint))
    {f : String × Constraint} (hf : f ∈ evaluateFields ctx fields) {d : Constraint}
    (h : f.2.HasNode d) : ∃ g ∈ fields, Stems ctx g.2 d :=
  match fields with
  | [] => nomatch hf
  | (k, c) :: rest => by
    rcases List.mem_cons.mp hf with rfl | hf
    · exact ⟨(k, c), List.mem_cons_self, stems_of_evaluate ctx c h⟩
    · obtain ⟨g, hg, hstems⟩ := stems_of_evaluateFields ctx rest hf h
      exact ⟨g, List.mem_cons_of_mem _ hg, hstems⟩
termination_by structural fields

theorem stems_of_evaluateItems [Library] (ctx : Context) (items : List Constraint) {c : Constraint}
    (hc : c ∈ evaluateItems ctx items) {d : Constraint} (h : c.HasNode d) :
    ∃ b ∈ items, Stems ctx b d :=
  match items with
  | [] => nomatch hc
  | b :: rest => by
    rcases List.mem_cons.mp hc with rfl | hc
    · exact ⟨b, List.mem_cons_self, stems_of_evaluate ctx b h⟩
    · obtain ⟨g, hg, hstems⟩ := stems_of_evaluateItems ctx rest hc h
      exact ⟨g, List.mem_cons_of_mem _ hg, hstems⟩
termination_by structural items

theorem stems_of_evaluateBranch [Library] (ctx : Context) (branch : Option Constraint)
    {d : Constraint} (h : (evaluateBranch ctx branch).HasNode d) :
    d = .constant .null ∨ ∃ b, branch = some b ∧ Stems ctx b d :=
  match branch with
  | none => by
    cases h
    exact .inl rfl
  | some b => .inr ⟨b, rfl, stems_of_evaluate ctx b h⟩
termination_by structural branch

end

theorem keys_evaluateFields [Library] (ctx : Context) (fields : List (String × Constraint)) :
    (evaluateFields ctx fields).map (·.1) = fields.map (·.1) := by
  rw [evaluateFields_eq_map, List.map_map]
  rfl

end Constraint

/-! ## Scripts -/

namespace Constraint

open Script (tokensOf IsScript lastFields)
open Script.Expression (Member)

/-- Every tree that a script exports is well formed. An object in it is what a literal in the
script means: it has the last of the fields with each key, in the order in which these last ones
stand and without those that are undefined. A constant is a single value, and every matcher is well
formed. Evaluation makes objects of objects with the same keys and leaves matchers as they are, and
it takes no object with a key twice out of a document that has none. -/
theorem run_wellFormed [Library] {limits : Script.Limits} {bindings : Bindings} {source : String}
    {c : Constraint} (h : Script.run limits bindings source = .ok c) :
    (∃ e : Expression, IsScript (tokensOf source) e ∧ e.value bindings = some (some c)
      ∧ ∀ fields, c.HasNode (.object fields) →
        (fields.map (·.1)).Nodup
        ∧ ∃ literal trailing members, e.HasPart (.object literal trailing)
          ∧ (Expression.object literal trailing).value bindings = some (some (.object fields))
          ∧ List.Forall₂ (Member bindings) literal members ∧ fields = lastFields members)
    ∧ (∀ v, c.HasNode (.constant v) → v.Single)
    ∧ (∀ m, c.HasNode (.matcher m) → m.WellFormed)
    ∧ ∀ ctx : Context,
      (∀ fields, (c.evaluate ctx).HasNode (.object fields) → (fields.map (·.1)).Nodup)
      ∧ (∀ m, (c.evaluate ctx).HasNode (.matcher m) → m.WellFormed)
      ∧ (ctx.document.Distinct → ∀ v, (c.evaluate ctx).HasNode (.constant v) → v.Distinct) := by
  have hscripted : c.Scripted fun _ => True := scripted_of_run (fun _ _ _ _ _ _ => trivial) h
  have hkeys : ∀ fields, c.HasNode (.object fields) → (fields.map (·.1)).Nodup := by
    intro fields hnode
    cases hscripted.node hnode with
    | object hkeys _ => exact hkeys
  have hconstant : ∀ v, c.HasNode (.constant v) → v.Single := by
    intro v hnode
    cases hscripted.node hnode with
    | constant hscalar hv => exact hv.single hscalar
  have hmatcher : ∀ m, c.HasNode (.matcher m) → m.WellFormed := by
    intro m hnode
    cases hscripted.node hnode with
    | matcher hm => exact hm.wellFormed
  refine ⟨?_, hconstant, hmatcher, fun ctx => ⟨fun fields hnode => ?_, fun m hnode => ?_,
    fun hdocument v hnode => ?_⟩⟩
  · obtain ⟨e, hv, hscript, -⟩ := Script.run_sound h
    refine ⟨e, hscript, hv, fun fields hnode => ⟨hkeys fields hnode, ?_⟩⟩
    obtain ⟨literal, trailing, hpart, hvalue⟩ := e.literal_of_node hv hnode
    have hfields := hvalue
    simp only [Expression.value, Option.map_eq_some_iff, Option.some.injEq, object.injEq,
      exists_eq_right] at hfields
    obtain ⟨members, hmembers, hlast⟩ := Script.Expression.fieldValues_eq_last hfields
    exact ⟨literal, trailing, members, hpart, hvalue, hmembers, hlast⟩
  · cases stems_of_evaluate ctx c hnode with
    | object hstem =>
      rw [keys_evaluateFields]
      exact hkeys _ hstem
  · cases stems_of_evaluate ctx c hnode with
    | matcher hstem => exact hmatcher m hstem
  · cases stems_of_evaluate ctx c hnode with
    | missing => exact .null
    | constant hstem =>
      cases hscripted.node hstem with
      | constant _ hv => exact hv.distinct
    | selected hstem =>
      exact .array (JsonPath.passesDown_distinct.select hdocument hdocument _)

section Simple

attribute [local instance] Library.simple

/-- The key that comes again has its last value, and the one that is undefined in the end is
gone. -/
theorem run_wellFormed_repeated : ∃ c,
    Script.run {} Bindings.standard
        "\x7bb: 1, a: date(\x7bfrom: '2020-02-29'\x7d), c: 2, b: anyOf(-1), c: undefined\x7d"
        = .ok c
    ∧ (c.field? "b").map kind = some "anyOf" ∧ (c.field? "c").isNone = true
    ∧ (∀ fields, c.HasNode (.object fields) → (fields.map (·.1)).Nodup)
    ∧ (∀ v, c.HasNode (.constant v) → v.Single)
    ∧ ∀ m, c.HasNode (.matcher m) → m.WellFormed := by
  obtain ⟨c, hc, hfields⟩ : ∃ c, Script.run {} Bindings.standard
        "\x7bb: 1, a: date(\x7bfrom: '2020-02-29'\x7d), c: 2, b: anyOf(-1), c: undefined\x7d"
          = .ok c ∧ ((c.field? "b").map kind == some "anyOf" && (c.field? "c").isNone) = true :=
    exists_ok_of_any (by decide +kernel)
  rw [Bool.and_eq_true, beq_iff_eq] at hfields
  obtain ⟨⟨e, -, -, hobjects⟩, hconstants, hmatchers, -⟩ := run_wellFormed hc
  exact ⟨c, hc, hfields.1, hfields.2, fun fields hnode => (hobjects fields hnode).1, hconstants,
    hmatchers⟩

end Simple

end Constraint

end HttpContract
