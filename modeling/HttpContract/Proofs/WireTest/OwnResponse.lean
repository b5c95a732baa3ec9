import HttpContract.Library.Simple
import HttpContract.Proofs.Contract.Respond
import HttpContract.WireTest.Verify

/-!
# WireTest — the answers of a contract's own stub

The response that a contract gives passes its own verification (`verify_respond`) if it says the
same to the client as to the stub, that is, without two-sided values and queries, and if what was
drawn arrives as what it is: headers are texts, the body is not null, and its text is read back.
-/

namespace HttpContract

open Calendar (Instant)
open Constraint (Closed Fits Met compare_textless hasLargeBound isText isWritten yields_text)

variable {now : Instant} {ctx : Context}

/-! ## What is drawn for a response -/

namespace Contract

theorem yields_resolveHeaders [Library] {headers : List (String × Constraint)}
    (h : ∀ f ∈ headers, (f.2.resolve now ctx).Yields fun v =>
      f.2.Fits v ∧ isText (f.1.toLower ≠ "content-type") v = true) :
    (resolveHeaders now ctx headers).Yields fun hs =>
      ∃ vs, List.Forall₂ DrawnHeader headers vs ∧ hs = sentHeaders vs := by
  induction headers with
  | nil => exact .pure ⟨[], .nil, rfl⟩
  | cons f rest ih =>
    obtain ⟨name, c⟩ := f
    refine ((h (name, c) (by simp)).mapReason _).bind fun v hv => ?_
    refine (ih fun g hg => h g (by simp [hg])).bind ?_
    rintro _ ⟨vs, hvs, rfl⟩
    exact .pure ⟨(name, v) :: vs, .cons ⟨rfl, hv⟩ hvs, rfl⟩

theorem yields_resolveBody [Library] {body : Option Constraint}
    (h : ∀ c ∈ body, (c.resolve now ctx).Yields c.Fits) :
    (resolveBody now ctx body).Yields (Option.Rel Fits body) := by
  cases body with
  | none => exact .pure .none
  | some c => exact ((h c rfl).mapReason _).bind fun v hv => .pure (.some hv)

/-- A response whose parts are drawn for the parts of a contract. -/
structure Answers (rule : ResponseRule) (r : Response) : Prop where
  status : rule.status.Met (Json.ofInt r.status)
  headers : ∃ vs, List.Forall₂ DrawnHeader rule.headers vs ∧ r.headers = sentHeaders vs
  body : Option.Rel Fits rule.body r.body

/-- What a contract of closed parts gives is drawn for its parts. -/
theorem yields_respond [Library] (hlibrary : Library.DrawsMatching) {c : Contract}
    (hclosed : c.response.Made Closed)
    (hbounds : ∀ part ∈ c.response.parts, part.any hasLargeBound = false)
    (hheaders : PlainHeaders c.response.headers) (basePath : String) (request : Request) :
    (c.respond now basePath request).Yields (Answers c.response) := by
  have hstatus := hclosed.status.yields_fits hlibrary (hbounds _ (by simp [ResponseRule.parts]))
    now (request.context basePath)
  refine (yields_resolveHeaders fun f hf => ?_).bind ?_
  · have hpart : f.2 ∈ c.response.parts := by
      simp only [ResponseRule.parts, List.mem_cons, List.mem_append, List.mem_map]
      exact .inl (.inr ⟨f, hf, rfl⟩)
    exact ((hclosed.headers.2 f hf).yields_fits hlibrary (hbounds _ hpart) now _).and
      (yields_text (hheaders.texts f hf) now _)
  rintro _ ⟨vs, hvs, rfl⟩
  refine (hstatus.mapReason _).bind fun v hv => ?_
  split
  · exact .fail
  · rename_i status hcode
    refine (yields_resolveBody fun b hb => ?_).bind fun body hbody => .pure ?_
    · have hpart : b ∈ c.response.parts := by
        simp [ResponseRule.parts, Option.mem_def.mp hb]
      exact (hclosed.body b hb).1.yields_fits hlibrary (hbounds _ hpart) now _
    · refine ⟨?_, ⟨vs, hvs, rfl⟩, hbody⟩
      obtain ⟨-, -, rfl⟩ := Response.statusOf?_eq_some.mp hcode
      exact hv.1

end Contract

/-! ## What verification finds -/

namespace WireTest

theorem checkPart_met {part : ResponsePart} {c : Constraint} {v : Json} (h : c.Met v) :
    checkPart part c v = [] := by
  rw [checkPart, show c.compare v = .ok true from h]

theorem fits_met {c : Constraint} {v : Json} (h : c.Met v) : fits c v = true := by
  rw [fits, show c.compare v = .ok true from h]

/-- The text of a body that is not null and reads back fits as it is or as the value in it. -/
theorem checkBody_payload {c : Constraint} {v : Json} (h : c.Fits v) (hnull : v ≠ .null)
    (hlegible : v.legible Json.nestingLimit = true) :
    checkBody c (Response.payload (some v)).1 = [] := by
  obtain ⟨hmet, hdistinct⟩ := h
  have hfits : (fits c (.string (Response.payload (some v)).1)
      || ((Json.parse? (Response.payload (some v)).1).map (fits c)).getD false) = true := by
    cases v with
    | null => exact absurd rfl hnull
    | string s => simp [Response.payload, fits_met hmet]
    | _ => simp [Response.payload, Json.parse?_text hdistinct hlegible, fits_met hmet]
  rw [checkBody, if_pos hfits]

/-- A response of closed parts with texts for headers passes, if its body is not null and reads
back. -/
theorem verify_answers [Library] {rule : ResponseRule} {r : Response} (hclosed : rule.Made Closed)
    (hheaders : PlainHeaders rule.headers) (h : Contract.Answers rule r)
    (hbody : ∀ v ∈ r.body, v ≠ .null ∧ v.legible Json.nestingLimit = true) (ctx : Context) :
    verify rule ctx ⟨r.status, r.encode.1, r.encode.2⟩ = [] := by
  obtain ⟨hmet, ⟨vs, hvs, hsent⟩, hrel⟩ := h
  have hencode : r.encode.1 = r.headers ++ r.added := by rw [Response.encode_eq]
  have htext : r.encode.2 = (Response.payload r.body).1 := by rw [Response.encode_eq]
  have hstatus : checkStatus ctx rule.status ⟨r.status, r.encode.1, r.encode.2⟩ = [] := by
    rw [checkStatus, hclosed.status.evaluate_eq]
    exact checkPart_met hmet
  have hfound : checkHeaders ctx rule.headers ⟨r.status, r.encode.1, r.encode.2⟩ = [] := by
    rw [checkHeaders, List.flatMap_eq_nil_iff]
    intro h hh
    rw [(hclosed.headers.2 h hh).evaluate_eq, hencode, hsent]
    exact checkPart_met (header_met hheaders hvs (fun _ => Response.name_of_added) hh)
  have hdeclared : checkDeclaredBody ctx rule.body ⟨r.status, r.encode.1, r.encode.2⟩ = [] := by
    rw [htext]
    cases hrule : rule.body with
    | none => rfl
    | some part =>
      rw [hrule] at hrel
      generalize r.body = drawn at hrel hbody
      cases hrel with
      | some hfits =>
        rw [checkDeclaredBody, (hclosed.body part hrule).1.evaluate_eq]
        exact checkBody_payload hfits (hbody _ rfl).1 (hbody _ rfl).2
  rw [verify, hstatus, hfound, hdeclared]
  rfl

/-- No answer passes where a header is declared that no text can meet. -/
theorem verify_textless [Library] {rule : ResponseRule} (hclosed : rule.Made Closed)
    {h : String × Constraint} (hh : h ∈ rule.headers) (htextless : h.2.isTextless = true)
    (ctx : Context) (w : WireResponse) : verify rule ctx w ≠ [] := by
  have harrived : isWritten (((w.headers.header? h.1).map Json.string).getD .null) = true := by
    cases w.headers.header? h.1 <;> rfl
  intro hverify
  rw [verify, List.append_eq_nil_iff, List.append_eq_nil_iff, checkHeaders,
    List.flatMap_eq_nil_iff] at hverify
  have hfound := hverify.1.2 h hh
  rw [(hclosed.headers.2 h hh).evaluate_eq, checkPart, compare_textless htextless harrived]
    at hfound
  cases hfound

/-- Let the texts that the libraries draw match their patterns. Let a contract have no two-sided
values and queries, and no whole number with a bound greater than `2 ^ 52` in its response. If its
headers are texts with different names, every response that it gives passes its verification,
provided that the body that was drawn is not null and reads back. If a header is declared as a
number, a truth value or an object, no answer passes. -/
theorem verify_respond [Library] (hlibrary : Library.DrawsMatching) {limits : Script.Limits}
    {source : String} {draws₀ : Draws} {c : Contract}
    (hcompile : ((Contract.compile limits source).run draws₀).1 = .ok c)
    (hcalls : ∀ name ∈ Contract.contextCalls, ¬Script.Calls source name)
    (hbounds : ∀ part ∈ c.response.parts, part.any hasLargeBound = false) (ctx : Context) :
    (PlainHeaders c.response.headers → ∀ now basePath request draws r,
      ((c.respond now basePath request).run draws).1 = .ok r →
      (∀ v ∈ r.body, v ≠ .null ∧ v.legible Json.nestingLimit = true) →
      verify c.response ctx ⟨r.status, r.encode.1, r.encode.2⟩ = [])
    ∧ ((∃ h ∈ c.response.headers, h.2.isTextless = true) → ∀ w, verify c.response ctx w ≠ []) := by
  obtain ⟨-, hclosed⟩ := Contract.compile_closed hcalls hcompile
  constructor
  · intro hheaders now basePath request draws r hrespond hbody
    have hanswers :=
      Contract.yields_respond hlibrary hclosed hbounds hheaders basePath request draws r hrespond
    exact verify_answers hclosed hheaders hanswers hbody ctx
  · rintro ⟨h, hh, htextless⟩ w
    exact verify_textless hclosed hh htextless ctx w

section Simple

attribute [local instance] Library.simple

theorem verify_respond_identifier : ∃ c r,
    ((Contract.compile {}
      "\x7bresponse: \x7bheaders: \x7b'X-Id': uuid4()\x7d, body: [1.5, text()]\x7d\x7d").run
        ⟨id, 0⟩).1 = .ok c
    ∧ ((c.respond ⟨0, 0⟩ "" {}).run ⟨id, 0⟩).1 = .ok r
    ∧ verify c.response ⟨.null, .test⟩ ⟨r.status, r.encode.1, r.encode.2⟩ = [] := by
  obtain ⟨c, hcompile, hchecks⟩ : ∃ c, ((Contract.compile {}
      "\x7bresponse: \x7bheaders: \x7b'X-Id': uuid4()\x7d, body: [1.5, text()]\x7d\x7d").run
        ⟨id, 0⟩).1 = .ok c
      ∧ (decide (∀ part ∈ c.response.parts, part.any hasLargeBound = false)
        && decide (PlainHeaders c.response.headers)
        && ((c.respond ⟨0, 0⟩ "" {}).run ⟨id, 0⟩).1.toOption.any fun r =>
          decide (∀ v ∈ r.body, v ≠ .null ∧ v.legible Json.nestingLimit = true)) = true :=
    exists_ok_of_any (by decide +kernel)
  rw [Bool.and_eq_true, Bool.and_eq_true, decide_eq_true_eq, decide_eq_true_eq] at hchecks
  obtain ⟨⟨hbounds, hheaders⟩, hresponse⟩ := hchecks
  obtain ⟨r, hr, hbody⟩ := exists_ok_of_any hresponse
  exact ⟨c, r, hcompile, hr, (verify_respond Library.simple_drawsMatching hcompile
    (by decide +kernel) hbounds _).1 hheaders _ _ _ _ _ hr (of_decide_eq_true hbody)⟩

end Simple

end WireTest

end HttpContract
