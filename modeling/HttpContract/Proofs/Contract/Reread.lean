import HttpContract.Proofs.Contract.Settled

/-!
# Contract — canonical scripts are read back

The canonical script of a contract with normal parts is a script for the same contract, but that its
parts are settled and that a body which settles to null or the empty text is no longer declared
(`compileWith_script`).
-/

namespace HttpContract

open Constraint (ScriptedFields Binds settledFields settledFields_append settledItems_eq_map)
open Script (Bindings Delimited Limits Prints Scans TokenKind Yields assignmentKinds prints_name
  scans_symbol semicolons yields_name yields_symbol)

variable {sides : Sidedness → Prop} {s : Sidedness} {bindings : Bindings}

namespace Contract

/-! ## Reading the written parts -/

theorem methodNames_map (name : String) {ms : List String} (h : ∀ m ∈ ms, m.toUpper = m) :
    methodNames name (ms.map .string) = .ok ms := by
  induction ms with
  | nil => rfl
  | cons m rest ih =>
    rw [List.map_cons, methodNames, ih fun m' hm' => h m' (by simp [hm']), h m (by simp)]
    rfl

theorem literalItems?_map (ms : List String) :
    Constraint.literalItems? (ms.map fun m => .constant (.string m)) = some (ms.map .string) := by
  induction ms with
  | nil => rfl
  | cons m rest ih =>
    rw [List.map_cons, Constraint.literalItems?, ih]
    rfl

/-- Written methods in capital letters are read back. -/
theorem methodsOf_toConstraint {ms : Methods} (h : ms.Capital) :
    methodsOf ms.toConstraint = .ok ms := by
  cases ms with
  | one m =>
    have hm : m.toUpper = m := h
    simp only [Methods.toConstraint, methodsOf, Constraint.literal?, hm]
  | anyOf ms =>
    obtain ⟨hne, hms⟩ := h
    obtain ⟨m, rest, rfl⟩ := List.exists_cons_of_ne_nil hne
    have hliteral : (Methods.anyOf (m :: rest)).toConstraint.literal?
        = some (.array (.string m :: rest.map .string)) := by
      rw [Methods.toConstraint, Constraint.literal?, literalItems?_map]
      rfl
    rw [methodsOf, hliteral]
    exact congrArg (Except.map Methods.anyOf) (methodNames_map "request.method" hms)

/-- Written query values are read back. -/
theorem queryOf_toConstraint (query : List QueryRule) (s : Sidedness) :
    queryOf ((Constraint.array (query.map QueryRule.toConstraint)).settled s)
      = .ok (query.map (QueryRule.settled s)) := by
  rw [Constraint.settled, settledItems_eq_map, List.map_map, queryOf]
  induction query with
  | nil => rfl
  | cons q rest ih =>
    simp only [List.map_cons, queryRules]
    rw [ih]
    rfl

variable {β : Type} {step : β → String × Constraint → Except CompileError β} {b : β}

/-- Reading the headers that are written, if there are any, sets them. -/
theorem foldlM_headersField (set : β → List (String × Constraint) → β)
    (hstep : ∀ fields, step b ("headers", .object fields) = .ok (set b fields))
    (hnone : set b [] = b) (headers : List (String × Constraint)) (s : Sidedness) :
    (settledFields s (headersField headers)).foldlM step b
      = .ok (set b (settledFields s headers)) := by
  cases headers with
  | nil =>
    show Except.ok b = .ok (set b [])
    rw [hnone]
  | cons h rest =>
    show (step b ("headers", .object (settledFields s (h :: rest))) >>= pure) = _
    rw [hstep]
    rfl

/-- Reading the body that is written, if there is one, sets it. -/
theorem foldlM_bodyField (set : β → Option Constraint → β)
    (hstep : ∀ c, step b ("body", c) = .ok (set b (bodyOf c))) (hnone : set b none = b)
    (body : Option Constraint) (s : Sidedness) :
    (settledFields s (optionalField "body" body)).foldlM step b
      = .ok (set b (settledBody s body)) := by
  cases body with
  | none =>
    show Except.ok b = .ok (set b none)
    rw [hnone]
  | some c =>
    show (step b ("body", c.settled s) >>= pure) = _
    rw [hstep]
    rfl

/-- Reading the query values that are written, if there are any, sets them. -/
theorem foldlM_queryField (r : RequestRule) (query : List QueryRule) (s : Sidedness)
    (hnone : r.query = []) :
    (settledFields s (if query.isEmpty then []
      else [("queryParameters", .array (query.map QueryRule.toConstraint))])).foldlM
        setRequestField r
      = .ok { r with query := query.map (QueryRule.settled s) } := by
  by_cases hempty : query = []
  · subst hempty
    show Except.ok r = .ok { r with query := [] }
    rw [← hnone]
  · rw [if_neg (by simpa using hempty)]
    simp only [settledFields, List.foldlM_cons, List.foldlM_nil, setRequestField,
      queryOf_toConstraint]
    rfl

/-- Written requests are read back. -/
theorem requestOf_toConstraint {r : RequestRule} (h : r.methods.Capital) (s : Sidedness) :
    requestOf (r.toConstraint.settled s) = .ok (r.settled s) := by
  have hfirst : (settledFields s [("method", r.methods.toConstraint), ("urlPath", r.path)]).foldlM
      setRequestField {} = .ok { methods := r.methods, path := r.path.settled s } := by
    simp only [settledFields, Methods.settled_toConstraint, List.foldlM_cons, List.foldlM_nil,
      setRequestField, methodsOf_toConstraint h]
    rfl
  have hquery := foldlM_queryField { methods := r.methods, path := r.path.settled s } r.query s rfl
  rw [RequestRule.toConstraint, Constraint.settled]
  show (settledFields s _).foldlM setRequestField {} = _
  simp only [settledFields_append, List.foldlM_append, bind_ok]
  exact ⟨_, ⟨_, ⟨_, hfirst, hquery⟩, foldlM_headersField
    (fun (r : RequestRule) headers => { r with headers }) (fun fields => rfl) rfl r.headers s⟩,
    foldlM_bodyField (fun (r : RequestRule) body => { r with body }) (fun c => rfl) rfl r.body s⟩

/-- A written response is read back. -/
theorem responseOf_toConstraint (r : ResponseRule) (s : Sidedness) :
    responseOf (r.toConstraint.settled s) = .ok (r.settled s) := by
  rw [ResponseRule.toConstraint, Constraint.settled, ← List.singleton_append]
  show (settledFields s _).foldlM setResponseField {} = _
  simp only [settledFields_append, List.foldlM_append, bind_ok]
  exact ⟨_, ⟨{ status := r.status.settled s }, rfl, foldlM_headersField
    (fun (r : ResponseRule) headers => { r with headers }) (fun fields => rfl) rfl r.headers s⟩,
    foldlM_bodyField (fun (r : ResponseRule) body => { r with body }) (fun c => rfl) rfl r.body s⟩

/-- What is read back of a written contract, but that its script is given. -/
theorem ofConstraint_toConstraint [Library] {c : Contract} (h : c.Canonical sides) (s : Sidedness)
    (fresh source : String) :
    ofConstraint fresh source (c.toConstraint.settled s)
      = .ok ⟨c.id, c.name, c.request.settled s, c.response.settled s, source⟩ := by
  have hfields : (settledFields s [("id", .constant (.string c.id)),
        ("name", .constant (.string c.name)), ("request", c.request.toConstraint),
        ("response", c.response.toConstraint)]).foldlM setField {}
      = .ok ⟨some c.id, some c.name, c.request.settled s, c.response.settled s⟩ := by
    simp only [settledFields, List.foldlM_cons, List.foldlM_nil, setField,
      requestOf_toConstraint h.request.methods, responseOf_toConstraint]
    rfl
  rw [toConstraint, Constraint.settled, ofConstraint, hfields]
  show Except.ok (Contract.mk (((some c.id).filter fun id => !id.isEmpty).getD fresh) _ _ _ _) = _
  rw [filter_nonempty h.id_ne]
  rfl

/-! ## The written contract -/

theorem scripted_text [Library] (x : String) : (Constraint.constant (.string x)).Scripted sides :=
  .constant rfl (.string x)

theorem scripted_methods [Library] (ms : Methods) : ms.toConstraint.Scripted sides := by
  cases ms with
  | one m => exact scripted_text m
  | anyOf ms =>
    refine .array fun c hc => ?_
    obtain ⟨m, -, rfl⟩ := List.mem_map.mp hc
    exact scripted_text m

/-- Headers that are written, if there are any, are written as a tree that scripts mean. -/
theorem scripted_headersField [Library] {headers : List (String × Constraint)}
    (h : ScriptedFields sides headers) : ∀ f ∈ headersField headers, f.2.Scripted sides := by
  intro f hf
  unfold headersField at hf
  split at hf
  · cases hf
  · obtain rfl := List.mem_singleton.mp hf
    exact .object h.keys h.fields

theorem scripted_bodyField [Library] {body : Option Constraint} (h : ∀ c ∈ body, c.Declared sides) :
    ∀ f ∈ optionalField "body" body, f.2.Scripted sides := by
  intro f hf
  cases body with
  | none => cases hf
  | some c =>
    obtain rfl := List.mem_singleton.mp hf
    exact (h c rfl).scripted

theorem keys_headersField (headers : List (String × Constraint)) :
    ((headersField headers).map (·.1)).Sublist ["headers"] := by
  unfold headersField
  split
  · exact List.nil_sublist _
  · exact List.Sublist.refl _

theorem keys_optionalField (key : String) (c : Option Constraint) :
    ((optionalField key c).map (·.1)).Sublist [key] := by
  cases c with
  | none => exact List.nil_sublist _
  | some c => exact List.Sublist.refl _

/-- Normal requests are written as a tree that scripts mean. -/
theorem scripted_request [Library] {r : RequestRule} (h : r.Canonical sides) :
    r.toConstraint.Scripted sides := by
  have hquery : ∀ f ∈ (if r.query.isEmpty then []
      else [("queryParameters", Constraint.array (r.query.map QueryRule.toConstraint))]),
      f.2.Scripted sides := by
    intro f hf
    split at hf
    · cases hf
    · obtain rfl := List.mem_singleton.mp hf
      refine .array fun c hc => ?_
      obtain ⟨q, hq, rfl⟩ := List.mem_map.mp hc
      obtain ⟨hname, hvalue⟩ := h.query q hq
      refine .object (by simp) fun f hf => ?_
      simp only [List.mem_cons, List.not_mem_nil, or_false] at hf
      rcases hf with rfl | rfl
      · exact hname
      · exact hvalue
  have hquerykeys : ((if r.query.isEmpty then []
      else [("queryParameters", Constraint.array (r.query.map QueryRule.toConstraint))]).map
        (·.1)).Sublist ["queryParameters"] := by
    split
    · exact List.nil_sublist _
    · exact List.Sublist.refl _
  refine .object ?_ ?_
  -- parts are left out, but none is written twice
  · have hkeys := (((List.Sublist.refl ["method", "urlPath"]).append hquerykeys).append
      (keys_headersField r.headers)).append (keys_optionalField "body" r.body)
    simp only [List.map_append]
    exact List.Nodup.sublist hkeys (by decide)
  · intro f hf
    simp only [List.mem_append, List.mem_cons, List.not_mem_nil, or_false] at hf
    rcases hf with (((rfl | rfl) | hf) | hf) | hf
    · exact scripted_methods r.methods
    · exact h.path
    · exact hquery f hf
    · exact scripted_headersField h.headers f hf
    · exact scripted_bodyField h.body f hf

/-- A normal response is written as a tree that scripts mean. -/
theorem scripted_response [Library] {r : ResponseRule} (h : r.Canonical sides) :
    r.toConstraint.Scripted sides := by
  refine .object ?_ ?_
  · have hkeys := ((List.Sublist.refl ["status"]).append (keys_headersField r.headers)).append
      (keys_optionalField "body" r.body)
    simp only [List.map_append]
    exact List.Nodup.sublist hkeys (by decide)
  · intro f hf
    simp only [List.mem_append, List.mem_cons] at hf
    rcases hf with (rfl | hf) | hf
    · exact h.status
    · exact scripted_headersField h.headers f hf
    · exact scripted_bodyField h.body f hf

/-- A contract with normal parts is written as a tree that scripts mean. -/
theorem Canonical.scripted [Library] {c : Contract} (h : c.Canonical sides) :
    c.toConstraint.Scripted sides := by
  refine .object (by simp) fun f hf => ?_
  simp only [List.mem_cons, List.not_mem_nil, or_false] at hf
  rcases hf with rfl | rfl | rfl | rfl
  · exact scripted_text c.id
  · exact scripted_text c.name
  · exact scripted_request h.request
  · exact scripted_response h.response

/-! ## The canonical script -/

theorem scans_exports {rest out : List Char} {ks : List TokenKind} (hrest : Delimited rest)
    (h : Scans rest ks out) :
    Scans ("module".toList ++ '.' :: ("exports".toList ++ rest))
      (.identifier "module" :: .symbol .dot :: .identifier "exports" :: ks) out := by
  have hexports := ((prints_name "exports" (by decide)).scans rest hrest).append h
  have hdot : Yields ('.' :: ("exports".toList ++ rest)) (.symbol .dot)
      ("exports".toList ++ rest) := yields_symbol .dot rfl
  refine .cons (yields_name (by decide) fun c hc => ?_) (.cons hdot hexports)
  obtain rfl := Option.some.inj hc
  decide

/-- What is assigned to `module.exports` on a line. -/
theorem scans_assignment {cs : List Char} {ks : List TokenKind} (h : Prints cs ks) :
    Scans ("module.exports = ".toList ++ cs ++ [';', '\n'])
      (assignmentKinds true ++ (ks ++ semicolons 1)) ['\n'] := by
  have hsemicolon : Scans [';', '\n'] (semicolons 1) ['\n'] :=
    scans_symbol (s := .semicolon) (by simp) (.nil ['\n'])
  have hvalue : Scans (cs ++ [';', '\n']) (ks ++ semicolons 1) ['\n'] :=
    (h.scans _ (.cons (by decide))).append hsemicolon
  obtain ⟨k, ls, hk⟩ := List.exists_cons_of_ne_nil h.nonempty
  rw [hk, List.cons_append] at hvalue ⊢
  have hblank : ∀ c ∈ [' '], Unicode.isWhiteSpace c = true := by simp [Unicode.isWhiteSpace]
  have hequals : Scans (' ' :: '=' :: ' ' :: (cs ++ [';', '\n']))
      (.symbol .equals :: k :: (ls ++ semicolons 1)) ['\n'] :=
    (scans_symbol (s := .equals) (by simp) (hvalue.blanks hblank)).blanks hblank
  have htext : "module.exports = ".toList ++ cs ++ [';', '\n'] = "module".toList
      ++ '.' :: ("exports".toList ++ ' ' :: '=' :: ' ' :: (cs ++ [';', '\n'])) := by
    simp
  rw [htext]
  exact scans_exports (.cons (by decide)) hequals

/-- Running the canonical script of a contract with normal parts gives what is settled of it. -/
theorem Canonical.run_script [Library] {c : Contract} (h : c.Canonical sides)
    (hbinds : Binds bindings s) {limits : Limits}
    (hallow : limits.Allow c.script c.toConstraint.expression) :
    Script.run limits bindings c.script = .ok (c.toConstraint.settled s) := by
  have hscan : Scans c.scriptChars _ ['\n'] :=
    scans_assignment (Constraint.prints_chars h.scripted (some 0))
  rw [← String.toList_ofList (l := c.scriptChars)] at hscan
  exact Script.run_assigned hscan Script.ends_newline
    (Constraint.value_expression hbinds h.scripted) hallow

/-- The canonical script of a contract with normal parts is read back as a script for the same
contract, its parts being settled. -/
theorem Canonical.compileWith_script [Library] {c : Contract} (h : c.Canonical sides)
    (hbinds : Binds bindings s) {limits : Limits}
    (hallow : limits.Allow c.script c.toConstraint.expression) (fresh : String) :
    compileWith limits bindings fresh c.script
      = .ok ⟨c.id, c.name, c.request.settled s, c.response.settled s, c.script⟩ := by
  rw [compileWith, h.run_script hbinds hallow]
  exact ofConstraint_toConstraint h s fresh c.script

end Contract

end HttpContract
