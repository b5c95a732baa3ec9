import HttpContract.Contract.Match
import HttpContract.Contract.Respond
import HttpContract.Proofs.Constraint.Settled

/-!
# Contract — what a contract does is in its evaluated parts

A contract looks at its parts only after they were evaluated in the context of a request. So two
contracts whose evaluated requests are the same handle the same requests (`handles_congr`), and two
whose evaluated responses are the same respond alike (`respond_congr`).
-/

namespace HttpContract

open Calendar (Instant)
open Constraint (evaluateFields evaluateFields_eq_map)

/-- A query value in a context. -/
def QueryRule.evaluate [Library] (ctx : Context) (q : QueryRule) : QueryRule :=
  ⟨q.name.evaluate ctx, q.value.evaluate ctx⟩

/-- The requests in a context. -/
def RequestRule.evaluate [Library] (ctx : Context) (r : RequestRule) : RequestRule where
  methods := r.methods
  path := r.path.evaluate ctx
  query := r.query.map (QueryRule.evaluate ctx)
  headers := evaluateFields ctx r.headers
  body := r.body.map (Constraint.evaluate ctx)

/-- The response in a context. -/
def ResponseRule.evaluate [Library] (ctx : Context) (r : ResponseRule) : ResponseRule where
  status := r.status.evaluate ctx
  headers := evaluateFields ctx r.headers
  body := r.body.map (Constraint.evaluate ctx)

namespace Contract

variable {now : Instant} {ctx : Context}

theorem forall₂_of_evaluateFields [Library] {hs hs' : List (String × Constraint)}
    (h : evaluateFields ctx hs = evaluateFields ctx hs') :
    List.Forall₂ (fun f f' => f.1 = f'.1 ∧ f.2.evaluate ctx = f'.2.evaluate ctx) hs hs' := by
  rw [evaluateFields_eq_map, evaluateFields_eq_map] at h
  exact (forall₂_of_map_eq h).imp fun _ _ hf => Prod.mk.inj hf

/-! ## Requests -/

theorem meets_congr [Library] {c d : Constraint} (h : c.evaluate ctx = d.evaluate ctx)
    (actual : Json) :
    meets ctx c actual = meets ctx d actual := by
  rw [meets, meets, h]

theorem resolve_congr [Library] {c d : Constraint} (h : c.evaluate ctx = d.evaluate ctx) :
    c.resolve now ctx = d.resolve now ctx := by
  rw [Constraint.resolve, Constraint.resolve, h]

theorem meetsQuery_congr [Library] {query : List (String × Json)} {qs qs' : List QueryRule}
    (h : qs.map (QueryRule.evaluate ctx) = qs'.map (QueryRule.evaluate ctx)) :
    meetsQuery now ctx query qs = meetsQuery now ctx query qs' := by
  have hqs := forall₂_of_map_eq h
  clear h
  induction hqs with
  | nil => rfl
  | cons hq _ ih =>
    obtain ⟨hname, hvalue⟩ := QueryRule.mk.inj hq
    simp only [meetsQuery, resolveName, resolve_congr hname, meets_congr hvalue, ih]

theorem meetsHeaders_congr [Library] {r : Request} {hs hs' : List (String × Constraint)}
    (h : evaluateFields ctx hs = evaluateFields ctx hs') :
    meetsHeaders ctx r hs = meetsHeaders ctx r hs' := by
  have hfields := forall₂_of_evaluateFields h
  clear h
  induction hfields with
  | nil => rfl
  | cons hf _ ih =>
    rw [meetsHeaders, meetsHeaders] at ih ⊢
    rw [List.all_cons, List.all_cons, ih, hf.1, meets_congr hf.2]

theorem meetsBody_congr [Library] {r : Request} {body body' : Option Constraint}
    (h : body.map (Constraint.evaluate ctx) = body'.map (Constraint.evaluate ctx)) :
    meetsBody ctx r body = meetsBody ctx r body' := by
  cases body with
  | none =>
    cases body' with
    | none => rfl
    | some d => cases h
  | some c =>
    cases body' with
    | none => cases h
    | some d => exact meets_congr (Option.some.inj h) r.parsedBody

/-- Contracts with the same requests in the context of a request agree on it. -/
theorem handles_congr [Library] {c d : Contract} {basePath : String} {r : Request}
    (h : c.request.evaluate (r.context basePath) = d.request.evaluate (r.context basePath)) :
    c.handles now basePath r = d.handles now basePath r := by
  simp only [RequestRule.evaluate, RequestRule.mk.injEq] at h
  obtain ⟨hmethods, hpath, hquery, hheaders, hbody⟩ := h
  simp only [handles, hmethods, meets_congr hpath, meetsQuery_congr hquery,
    meetsHeaders_congr hheaders, meetsBody_congr hbody]

/-! ## Responses -/

theorem resolvePart_congr [Library] {part : ResponsePart} {c d : Constraint}
    (h : c.evaluate ctx = d.evaluate ctx) :
    resolvePart now ctx part c = resolvePart now ctx part d := by
  rw [resolvePart, resolvePart, resolve_congr h]

theorem resolveHeaders_congr [Library] {hs hs' : List (String × Constraint)}
    (h : evaluateFields ctx hs = evaluateFields ctx hs') :
    resolveHeaders now ctx hs = resolveHeaders now ctx hs' := by
  have hfields := forall₂_of_evaluateFields h
  clear h
  induction hfields with
  | nil => rfl
  | @cons f f' _ _ hf _ ih =>
    obtain ⟨name, c⟩ := f
    obtain ⟨name', c'⟩ := f'
    obtain ⟨rfl, hvalue⟩ := hf
    rw [resolveHeaders, resolveHeaders, ih, resolvePart_congr hvalue]

theorem resolveBody_congr [Library] {body body' : Option Constraint}
    (h : body.map (Constraint.evaluate ctx) = body'.map (Constraint.evaluate ctx)) :
    resolveBody now ctx body = resolveBody now ctx body' := by
  cases body with
  | none =>
    cases body' with
    | none => rfl
    | some d => cases h
  | some c =>
    cases body' with
    | none => cases h
    | some d => rw [resolveBody, resolveBody, resolvePart_congr (Option.some.inj h)]

/-- Contracts with the same response in the context of a request respond alike to it. -/
theorem respond_congr [Library] {c d : Contract} {basePath : String} {r : Request}
    (h : c.response.evaluate (r.context basePath) = d.response.evaluate (r.context basePath)) :
    c.respond now basePath r = d.respond now basePath r := by
  simp only [ResponseRule.evaluate, ResponseRule.mk.injEq] at h
  obtain ⟨hstatus, hheaders, hbody⟩ := h
  simp only [respond, resolveHeaders_congr hheaders, resolvePart_congr hstatus,
    resolveBody_congr hbody]

end Contract

end HttpContract
