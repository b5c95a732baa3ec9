import HttpContract.Proofs.Constraint.OneSide
import HttpContract.Proofs.Contract.Derive
import HttpContract.Proofs.Contract.Roundtrip
import HttpContract.Proofs.Script.Unambiguous

/-!
# Contract — what one side sees of a contract

Two contracts are `SameOn` a mode if they differ only in sides that this mode does not take. Their
parts are the same in every context of the mode (`RequestRule.evaluate_seen`), and what is derived
from them for the test is the same on the side of the test again (`SameOn.derive`).
-/

namespace HttpContract

open Constraint (evaluateFields evaluateFields_seen evaluateFields_eq_map evaluate_seen seenFields
  seenFields_eq_map seenFields_settled seen_settled settledFields settledFields_eq_map
  ScriptedFields)
open Script (Bindings Limits)

variable {sides : Sidedness → Prop} {m : Mode}

/-! ## Seen parts -/

/-- A query value without the sides that a mode does not take. -/
def QueryRule.seen (m : Mode) (q : QueryRule) : QueryRule := ⟨q.name.seen m, q.value.seen m⟩

/-- Requests without the sides that a mode does not take. -/
def RequestRule.seen (m : Mode) (r : RequestRule) : RequestRule where
  methods := r.methods
  path := r.path.seen m
  query := r.query.map (QueryRule.seen m)
  headers := seenFields m r.headers
  body := r.body.map (Constraint.seen m)

/-- A response without the sides that a mode does not take. -/
def ResponseRule.seen (m : Mode) (r : ResponseRule) : ResponseRule where
  status := r.status.seen m
  headers := seenFields m r.headers
  body := r.body.map (Constraint.seen m)

/-- Contracts that differ only in sides which a mode does not take, the scripts that they were made
from aside. -/
structure Contract.SameOn (m : Mode) (c d : Contract) : Prop where
  id : c.id = d.id
  name : c.name = d.name
  request : c.request.seen m = d.request.seen m
  response : c.response.seen m = d.response.seen m

/-! ## Evaluation -/

theorem evaluate_seen_body [Library] (document : Json) (m : Mode) (body : Option Constraint) :
    (body.map (Constraint.seen m)).map (Constraint.evaluate ⟨document, m⟩)
      = body.map (Constraint.evaluate ⟨document, m⟩) := by
  cases body with
  | none => rfl
  | some c => exact congrArg some (evaluate_seen document m c)

/-- A mode evaluates requests as what it sees of them. -/
theorem RequestRule.evaluate_seen [Library] (document : Json) (m : Mode) (r : RequestRule) :
    (r.seen m).evaluate ⟨document, m⟩ = r.evaluate ⟨document, m⟩ := by
  have hquery : (r.query.map (QueryRule.seen m)).map (QueryRule.evaluate ⟨document, m⟩)
      = r.query.map (QueryRule.evaluate ⟨document, m⟩) := by
    rw [List.map_map]
    refine List.map_congr_left fun q _ => ?_
    rw [Function.comp_apply, QueryRule.evaluate, QueryRule.seen, Constraint.evaluate_seen,
      Constraint.evaluate_seen]
    rfl
  rw [RequestRule.evaluate, RequestRule.seen, Constraint.evaluate_seen, hquery,
    evaluateFields_seen, evaluate_seen_body]
  rfl

/-- A mode evaluates a response as what it sees of it. -/
theorem ResponseRule.evaluate_seen [Library] (document : Json) (m : Mode) (r : ResponseRule) :
    (r.seen m).evaluate ⟨document, m⟩ = r.evaluate ⟨document, m⟩ := by
  rw [ResponseRule.evaluate, ResponseRule.seen, Constraint.evaluate_seen, evaluateFields_seen,
    evaluate_seen_body]
  rfl

namespace Contract

variable {c d c' d' : Contract}

theorem SameOn.methods (h : c.SameOn m d) : c.request.methods = d.request.methods :=
  (RequestRule.mk.inj h.request).1

theorem SameOn.request_evaluate [Library] (h : c.SameOn m d) (document : Json) :
    c.request.evaluate ⟨document, m⟩ = d.request.evaluate ⟨document, m⟩ := by
  rw [← c.request.evaluate_seen, ← d.request.evaluate_seen, h.request]

theorem SameOn.response_evaluate [Library] (h : c.SameOn m d) (document : Json) :
    c.response.evaluate ⟨document, m⟩ = d.response.evaluate ⟨document, m⟩ := by
  rw [← c.response.evaluate_seen, ← d.response.evaluate_seen, h.response]

/-! ## Settling -/

/-- What is dropped from a body does not make it a declared one. -/
theorem bodyOf_seen (m : Mode) (c : Constraint) :
    bodyOf (c.seen m) = (bodyOf c).map (Constraint.seen m) := by
  cases c with
  | constant v =>
    change bodyOf (.constant v) = (bodyOf (.constant v)).map (Constraint.seen m)
    unfold bodyOf
    split <;> rfl
  | dual s stub test =>
    cases s with
    | both => cases m <;> rfl
    | stubOnly => rfl
    | testOnly => rfl
  | _ => rfl

theorem seen_settledBody (body : Option Constraint) :
    (settledBody .testOnly body).map (Constraint.seen .test)
      = settledBody .testOnly (body.map (Constraint.seen .test)) := by
  cases body with
  | none => rfl
  | some c =>
    simp only [settledBody, Option.bind_some, Option.map_some]
    rw [← bodyOf_seen, seen_settled]

end Contract

/-- Binding two-sided values to the side of the test keeps what the test sees of requests. -/
theorem RequestRule.seen_settled (r : RequestRule) :
    (r.settled .testOnly).seen .test = (r.seen .test).settled .testOnly := by
  have hquery : (r.query.map (QueryRule.settled .testOnly)).map (QueryRule.seen .test)
      = (r.query.map (QueryRule.seen .test)).map (QueryRule.settled .testOnly) := by
    rw [List.map_map, List.map_map]
    refine List.map_congr_left fun q _ => ?_
    simp only [Function.comp_apply, QueryRule.seen, QueryRule.settled, Constraint.seen_settled]
  simp only [RequestRule.seen, RequestRule.settled, Constraint.seen_settled, hquery,
    seenFields_settled, Contract.seen_settledBody]

/-- Binding two-sided values to the side of the test keeps what the test sees of a response. -/
theorem ResponseRule.seen_settled (r : ResponseRule) :
    (r.settled .testOnly).seen .test = (r.seen .test).settled .testOnly := by
  simp only [ResponseRule.seen, ResponseRule.settled, Constraint.seen_settled, seenFields_settled,
    Contract.seen_settledBody]

/-! ## The written form -/

/-- A response of normal parts is settled to one. -/
theorem ResponseRule.Canonical.settled [Library] {r : ResponseRule} (h : r.Canonical sides)
    (s : Sidedness) :
    (r.settled s).Canonical (· = s) where
  status := h.status.settled s
  headers := by
    rw [ResponseRule.settled, settledFields_eq_map]
    refine ⟨?_, ?_⟩
    · rw [List.map_map]
      exact h.headers.keys
    · intro f hf
      obtain ⟨g, hg, rfl⟩ := List.mem_map.mp hf
      exact (h.headers.fields g hg).settled s
  body := by
    intro c hc
    obtain ⟨b, hb, hc⟩ := Option.bind_eq_some_iff.mp hc
    exact Contract.declared_bodyOf ((h.body b hb).scripted.settled s) c hc

/-- What the test sees of a response is written alike if all two-sided values are bound to the side
of the test. -/
theorem ResponseRule.script_seen [Library] {r : ResponseRule} (h : r.Canonical (· = .testOnly)) :
    (r.seen .test).script = r.script := by
  have htree : (r.seen .test).toConstraint = r.toConstraint.seen .test := by
    obtain ⟨status, headers, body⟩ := r
    cases headers with
    | nil => cases body <;> rfl
    | cons f rest => cases body <;> rfl
  rw [script, script, Constraint.prettyText, Constraint.prettyText, htree,
    (Contract.scripted_response h).chars_seen]

namespace Contract

variable {c d c' d' : Contract}

/-! ## Deriving -/

/-- A contract with normal parts for both sides is the one that its canonical script denotes. -/
theorem Canonical.obtained [Library] {limits : Limits} (h : c.Canonical (· = .both))
    (hsource : c.source = c.script) (hallow : limits.Allow c.script c.toConstraint.expression) :
    Obtained c := by
  have hread := h.compileWith_script Constraint.binds_standard hallow
    (Constraint.Uuid.draw.run ⟨fun _ => 0, 0⟩).1
  rw [← compile_run, h.request.settled_eq, h.response.settled_eq, ← hsource] at hread
  exact .compiled hread

/-- What is derived from a contract, whatever limits it kept within. -/
theorem Canonical.of_derive [Library] {limits : Limits} (h : c.Canonical sides)
    (hd : derive limits c m = .ok d) :
    d.id = c.id ∧ d.name = c.name ∧ d.request = c.request.settled (sideOf m)
      ∧ d.response = c.response.settled (sideOf m) := by
  have hbinds := binds_sideOf m
  have hmodule : (Bindings.standard.bind "value" (sideBuiltin m)).lookup "module" = none := by
    cases m <;> rfl
  have hscan : Script.Scans c.scriptChars _ ['\n'] :=
    scans_assignment (Constraint.prints_chars h.scripted (some 0))
  rw [← String.toList_ofList (l := c.scriptChars)] at hscan
  rw [derive, compileWith] at hd
  cases hrun : Script.run limits (Bindings.standard.bind "value" (sideBuiltin m)) c.script with
  | error e =>
    simp only [hrun] at hd
    cases hd
  | ok exported =>
    obtain rfl := Script.value_of_assigned hscan Script.ends_newline
      (Constraint.value_expression hbinds h.scripted) hmodule hrun
    simp only [hrun, ofConstraint_toConstraint h] at hd
    cases hd
    exact ⟨rfl, rfl, rfl, rfl⟩

/-- What is derived for the test from contracts that are the same on its side is the same on its
side, and its response is written alike. -/
theorem SameOn.derive [Library] {limits : Limits} (h : c.SameOn .test c') (hc : c.Canonical sides)
    (hc' : c'.Canonical sides) (hd : Contract.derive limits c .test = .ok d)
    (hd' : Contract.derive limits c' .test = .ok d') :
    d.SameOn .test d' ∧ d.request.methods = d'.request.methods
      ∧ d.response.script = d'.response.script := by
  obtain ⟨hid, hname, hrequest, hresponse⟩ := hc.of_derive hd
  obtain ⟨hid', hname', hrequest', hresponse'⟩ := hc'.of_derive hd'
  have hresponses : d.response.seen .test = d'.response.seen .test := by
    rw [hresponse, hresponse', sideOf, ResponseRule.seen_settled, ResponseRule.seen_settled,
      h.response]
  refine ⟨⟨?_, ?_, ?_, hresponses⟩, ?_, ?_⟩
  · rw [hid, hid', h.id]
  · rw [hname, hname', h.name]
  · rw [hrequest, hrequest', sideOf, RequestRule.seen_settled, RequestRule.seen_settled, h.request]
  · rw [hrequest, hrequest']
    exact h.methods
  · have hnormal : d.response.Canonical (· = .testOnly) :=
      hresponse ▸ hc.response.settled .testOnly
    have hnormal' : d'.response.Canonical (· = .testOnly) :=
      hresponse' ▸ hc'.response.settled .testOnly
    rw [← ResponseRule.script_seen hnormal, ← ResponseRule.script_seen hnormal', hresponses]

end Contract

end HttpContract
