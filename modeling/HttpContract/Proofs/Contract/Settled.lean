import HttpContract.Proofs.Contract.Canonical
import HttpContract.Proofs.Contract.Evaluate

/-!
# Contract — settled parts

The parts of a contract that are read back from its canonical script are its parts, settled, but
that a body which settles to null or the empty text is no longer declared. Where no body does, the
parts that are read back are written alike (`RequestRule.toConstraint_settled`), and they are the
same in contexts that take the same sides (`RequestRule.Canonical.evaluate_settled`).
-/

namespace HttpContract

open Constraint (Agree ScriptedFields evaluateFields evaluateFields_eq_map settledFields
  settledFields_eq_map settledItems_eq_map)

variable {sides : Sidedness → Prop} {s : Sidedness} {ctx ctx' : Context}

/-! ## Settled parts -/

/-- The query value that is read back. -/
def QueryRule.settled (s : Sidedness) (q : QueryRule) : QueryRule :=
  ⟨q.name.settled s, q.value.settled s⟩

/-- The body that is read back: none, if null or the empty text is read. -/
def Contract.settledBody (s : Sidedness) (body : Option Constraint) : Option Constraint :=
  body.bind fun c => bodyOf (c.settled s)

/-- The requests that are read back. -/
def RequestRule.settled (s : Sidedness) (r : RequestRule) : RequestRule where
  methods := r.methods
  path := r.path.settled s
  query := r.query.map (QueryRule.settled s)
  headers := settledFields s r.headers
  body := Contract.settledBody s r.body

/-- The response that is read back. -/
def ResponseRule.settled (s : Sidedness) (r : ResponseRule) : ResponseRule where
  status := r.status.settled s
  headers := settledFields s r.headers
  body := Contract.settledBody s r.body

/-! ## Settled bodies -/

/-- A declared body without one-sided values is read back as a declared one. -/
theorem Constraint.Declared.bodyOf_settled [Library] {c : Constraint} (h : c.Declared (· = .both))
    (s : Sidedness) : Contract.bodyOf (c.settled s) = some (c.settled s) := by
  obtain ⟨hscripted, hdeclared⟩ := h
  cases hscripted with
  | constant => exact hdeclared
  | dual hs =>
    subst hs
    rfl
  | _ => rfl

/-- If all bodies are read back, settling is done body by body. -/
theorem Contract.settledBody_eq_map {body : Option Constraint}
    (h : ∀ c ∈ body, bodyOf (c.settled s) ≠ none) :
    settledBody s body = body.map (Constraint.settled s) := by
  cases body with
  | none => rfl
  | some c =>
    obtain ⟨d, hd⟩ := Option.ne_none_iff_exists'.mp (h c rfl)
    rw [settledBody, Option.bind_some, Option.map_some, hd, (bodyOf_idem hd).1]

theorem Contract.settledBody_bothSided [Library] {body : Option Constraint}
    (h : ∀ c ∈ body, c.Declared (· = .both)) :
    settledBody s body = body.map (Constraint.settled s) := by
  refine settledBody_eq_map fun c hc => ?_
  rw [(h c hc).bodyOf_settled s]
  simp

/-! ## Parts without one-sided values -/

theorem Constraint.ScriptedFields.settled_eq [Library] {fields : List (String × Constraint)}
    (h : ScriptedFields (· = .both) fields) : settledFields .both fields = fields := by
  rw [settledFields_eq_map]
  exact map_eq_self fun f hf => by rw [(h.fields f hf).settled_eq]

theorem Contract.settledBody_eq [Library] {body : Option Constraint}
    (h : ∀ c ∈ body, c.Declared (· = .both)) : settledBody .both body = body := by
  rw [settledBody_bothSided h]
  exact option_map_eq_self fun c hc => (h c hc).scripted.settled_eq

/-- Requests without one-sided values are read back as they are. -/
theorem RequestRule.Canonical.settled_eq [Library] {r : RequestRule} (h : r.Canonical (· = .both)) :
    r.settled .both = r := by
  have hquery : r.query.map (QueryRule.settled .both) = r.query := by
    refine map_eq_self fun q hq => ?_
    obtain ⟨hname, hvalue⟩ := h.query q hq
    rw [QueryRule.settled, hname.settled_eq, hvalue.settled_eq]
  rw [RequestRule.settled, h.path.settled_eq, hquery, h.headers.settled_eq,
    Contract.settledBody_eq h.body]

/-- A response without one-sided values is read back as it is. -/
theorem ResponseRule.Canonical.settled_eq [Library] {r : ResponseRule}
    (h : r.Canonical (· = .both)) : r.settled .both = r := by
  rw [ResponseRule.settled, h.status.settled_eq, h.headers.settled_eq,
    Contract.settledBody_eq h.body]

/-! ## The written form -/

theorem Constraint.settledFields_append (fs gs : List (String × Constraint)) :
    settledFields s (fs ++ gs) = settledFields s fs ++ settledFields s gs := by
  simp only [settledFields_eq_map, List.map_append]

theorem Contract.settledFields_headersField (s : Sidedness) (headers : List (String × Constraint)) :
    settledFields s (headersField headers) = headersField (settledFields s headers) := by
  cases headers with
  | nil => rfl
  | cons f rest => rfl

theorem Contract.settledFields_optionalField (s : Sidedness) (key : String)
    (c : Option Constraint) :
    settledFields s (optionalField key c) = optionalField key (c.map (Constraint.settled s)) := by
  cases c with
  | none => rfl
  | some c => rfl

theorem Methods.settled_toConstraint (s : Sidedness) (ms : Methods) :
    ms.toConstraint.settled s = ms.toConstraint := by
  cases ms with
  | one m => rfl
  | anyOf ms =>
    rw [Methods.toConstraint, Constraint.settled, settledItems_eq_map, List.map_map]
    rfl

theorem RequestRule.settled_queryField (s : Sidedness) (query : List QueryRule) :
    settledFields s (if query.isEmpty then []
        else [("queryParameters", .array (query.map QueryRule.toConstraint))])
      = if (query.map (QueryRule.settled s)).isEmpty then []
        else [("queryParameters",
          .array ((query.map (QueryRule.settled s)).map QueryRule.toConstraint))] := by
  cases query with
  | nil => rfl
  | cons q rest =>
    show [("queryParameters", (Constraint.array _).settled s)] = [("queryParameters", .array _)]
    rw [Constraint.settled, settledItems_eq_map, List.map_map, List.map_map]
    rfl

/-- Where the body is read back, the requests that are read back are written as what is settled of
the written requests. -/
theorem RequestRule.toConstraint_settled {r : RequestRule}
    (hbody : Contract.settledBody s r.body = r.body.map (Constraint.settled s)) :
    (r.settled s).toConstraint = r.toConstraint.settled s := by
  rw [toConstraint, toConstraint, Constraint.settled]
  simp only [Constraint.settledFields_append, Contract.settledFields_headersField,
    Contract.settledFields_optionalField, settled_queryField, settledFields,
    Methods.settled_toConstraint, settled, hbody]

/-- Where the body is read back, the response that is read back is written as what is settled of the
written response. -/
theorem ResponseRule.toConstraint_settled {r : ResponseRule}
    (hbody : Contract.settledBody s r.body = r.body.map (Constraint.settled s)) :
    (r.settled s).toConstraint = r.toConstraint.settled s := by
  rw [toConstraint, toConstraint, Constraint.settled]
  simp only [Constraint.settledFields_append, Contract.settledFields_headersField,
    Contract.settledFields_optionalField, List.cons_append, settledFields, settled, hbody]

theorem Contract.lookup_headersField (s : Sidedness) (headers : List (String × Constraint)) :
    (settledFields s (headersField headers)).lookup "body" = none := by
  cases headers with
  | nil => rfl
  | cons f rest => rfl

theorem Contract.lookup_bodyField (s : Sidedness) (body : Option Constraint) :
    (settledFields s (optionalField "body" body)).lookup "body"
      = body.map (Constraint.settled s) := by
  cases body with
  | none => rfl
  | some c => rfl

/-- What is settled of written requests has the body that is settled. -/
theorem RequestRule.field?_body (s : Sidedness) (r : RequestRule) :
    (r.toConstraint.settled s).field? "body" = r.body.map (Constraint.settled s) := by
  have hquery : (settledFields s (if r.query.isEmpty then []
      else [("queryParameters", .array (r.query.map QueryRule.toConstraint))])).lookup "body"
      = none := by
    split <;> rfl
  rw [toConstraint, Constraint.settled, Constraint.field?]
  simp only [Constraint.settledFields_append, List.lookup_append, hquery,
    Contract.lookup_headersField, Contract.lookup_bodyField]
  rfl

/-- What is settled of a written response has the body that is settled. -/
theorem ResponseRule.field?_body (s : Sidedness) (r : ResponseRule) :
    (r.toConstraint.settled s).field? "body" = r.body.map (Constraint.settled s) := by
  rw [toConstraint, Constraint.settled, Constraint.field?, List.cons_append, settledFields]
  simp only [Constraint.settledFields_append, List.lookup_cons, List.lookup_append,
    Contract.lookup_headersField, Contract.lookup_bodyField]
  rfl

/-! ## Settled parts in a context -/

theorem Constraint.ScriptedFields.evaluate_settled [Library] {fields : List (String × Constraint)}
    (h : ScriptedFields sides fields) (hctx : Agree s ctx ctx') :
    evaluateFields ctx (settledFields s fields) = evaluateFields ctx' fields := by
  rw [settledFields_eq_map, evaluateFields_eq_map, evaluateFields_eq_map, List.map_map]
  refine List.map_congr_left fun f hf => ?_
  rw [Function.comp_apply, (h.fields f hf).evaluate_settled hctx]

theorem Contract.evaluate_settledBody [Library] {body : Option Constraint}
    (h : ∀ c ∈ body, c.Declared sides)
    (hbody : settledBody s body = body.map (Constraint.settled s)) (hctx : Agree s ctx ctx') :
    (settledBody s body).map (Constraint.evaluate ctx) = body.map (Constraint.evaluate ctx') := by
  rw [hbody]
  cases body with
  | none => rfl
  | some c => exact congrArg some ((h c rfl).scripted.evaluate_settled hctx)

/-- Requests that are read back are the same in a context that takes the same sides. -/
theorem RequestRule.Canonical.evaluate_settled [Library] {r : RequestRule} (h : r.Canonical sides)
    (hbody : Contract.settledBody s r.body = r.body.map (Constraint.settled s))
    (hctx : Agree s ctx ctx') : (r.settled s).evaluate ctx = r.evaluate ctx' := by
  have hquery : (r.query.map (QueryRule.settled s)).map (QueryRule.evaluate ctx)
      = r.query.map (QueryRule.evaluate ctx') := by
    rw [List.map_map]
    refine List.map_congr_left fun q hq => ?_
    obtain ⟨hname, hvalue⟩ := h.query q hq
    rw [Function.comp_apply, QueryRule.evaluate, QueryRule.settled, hname.evaluate_settled hctx,
      hvalue.evaluate_settled hctx]
    rfl
  rw [RequestRule.evaluate, RequestRule.settled, h.path.evaluate_settled hctx, hquery,
    h.headers.evaluate_settled hctx, Contract.evaluate_settledBody h.body hbody hctx]
  rfl

/-- A response that is read back is the same in a context that takes the same sides. -/
theorem ResponseRule.Canonical.evaluate_settled [Library] {r : ResponseRule} (h : r.Canonical sides)
    (hbody : Contract.settledBody s r.body = r.body.map (Constraint.settled s))
    (hctx : Agree s ctx ctx') : (r.settled s).evaluate ctx = r.evaluate ctx' := by
  rw [ResponseRule.evaluate, ResponseRule.settled, h.status.evaluate_settled hctx,
    h.headers.evaluate_settled hctx, Contract.evaluate_settledBody h.body hbody hctx]
  rfl

end HttpContract
