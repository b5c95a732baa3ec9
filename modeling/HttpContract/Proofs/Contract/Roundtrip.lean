import HttpContract.Library.Simple
import HttpContract.Proofs.Contract.Reread

/-!
# Contract — compiling canonical scripts again

A script that calls for no one-sided values is compiled to a contract whose canonical script is
compiled to the same contract (`compile_script`). With one-sided values the canonical script is
still accepted, but a body that is written as null or as the empty text is lost when it is read
again: the canonical script denotes its contract if and only if no body is written so
(`compile_script_iff`).
-/

namespace HttpContract

open Calendar (Instant)
open Constraint (Agree binds_standard)
open Script (Bindings Limits)

variable {sides : Sidedness → Prop} {limits : Limits}

namespace Contract

/-! ## Without one-sided values -/

/-- The canonical script of a contract whose script calls for no one-sided values is a script for
the same contract. -/
theorem compile_script [Library] {limits₀ : Limits} {source : String} {draws : Draws} {c : Contract}
    (h : ((compile limits₀ source).run draws).1 = .ok c)
    (hstub : ¬Script.Calls source "stubValue") (htest : ¬Script.Calls source "testValue")
    (hallow : limits.Allow c.script c.toConstraint.expression) (draws' : Draws) :
    ((compile limits c.script).run draws').1 = .ok { c with source := c.script } := by
  have hc := compile_canonical h hstub htest
  rw [compile_run, hc.compileWith_script binds_standard hallow, hc.request.settled_eq,
    hc.response.settled_eq]

section Simple

attribute [local instance] Library.simple

theorem compile_script_shorthand : ∃ c, ((compile {}
      "\x7bname: 7, request: \x7bqueryParameters: \x7bq: null\x7d, body: ''\x7d\x7d").run
        ⟨fun _ => 0, 0⟩).1 = .ok c
    ∧ ((compile {} c.script).run ⟨fun _ => 1, 0⟩).1 = .ok { c with source := c.script } := by
  obtain ⟨c, hcompile, hallow⟩ : ∃ c, ((compile {}
        "\x7bname: 7, request: \x7bqueryParameters: \x7bq: null\x7d, body: ''\x7d\x7d").run
          ⟨fun _ => 0, 0⟩).1 = .ok c
      ∧ decide (Limits.Allow {} c.script c.toConstraint.expression) = true :=
    exists_ok_of_any (by decide +kernel)
  exact ⟨c, hcompile, compile_script hcompile (by decide +kernel) (by decide +kernel)
    (of_decide_eq_true hallow) _⟩

end Simple

/-! ## Contracts that are made from scripts -/

/-- The contracts that compiling gives, and those that are left of them on one side. -/
inductive Obtained [Library] : Contract → Prop where
  | compiled {limits : Limits} {bindings : Bindings} {source : String} {draws : Draws}
    {c : Contract} (h : ((compile limits source bindings).run draws).1 = .ok c) : Obtained c
  | derived {limits : Limits} {m : Mode} {c d : Contract} (hc : Obtained c)
    (h : derive limits c m = .ok d) : Obtained d

theorem Obtained.canonical [Library] {c : Contract} (h : Obtained c) :
    c.Canonical fun _ => True := by
  induction h with
  | compiled h =>
    rw [compile_run] at h
    exact compileWith_canonical (draw_ne _) (fun _ _ _ _ _ _ => trivial) h
  | derived hc h ih =>
    unfold derive at h
    simp only at h
    split at h
    · cases h
    · rename_i read hread
      have hnormal : read.Canonical fun _ => True :=
        compileWith_canonical ih.id_ne (fun _ _ _ _ _ _ => trivial) hread
      cases h
      exact ⟨ih.id_ne, hnormal.request, hnormal.response⟩

/-! ## Lost bodies -/

/-- Whether a declared body is read back as null or the empty text, which declare none. -/
def Lost (body : Option Constraint) : Prop := ∃ c ∈ body, bodyOf (c.settled .both) = none

/-- Whether a declared body of the contract is read back as none. -/
def LosesBody (c : Contract) : Prop := Lost c.request.body ∨ Lost c.response.body

instance (body : Option Constraint) : Decidable (Lost body) :=
  inferInstanceAs (Decidable (∃ c ∈ body, bodyOf (c.settled .both) = none))

theorem settledBody_of_not_lost {body : Option Constraint} (h : ¬Lost body) :
    settledBody .both body = body.map (Constraint.settled .both) :=
  settledBody_eq_map fun c hc hnone => h ⟨c, hc, hnone⟩

theorem Lost.settledBody {body : Option Constraint} (h : Lost body) :
    settledBody .both body = none := by
  obtain ⟨c, hc, hnone⟩ := h
  rw [Option.mem_def.mp hc]
  exact hnone

/-- What is read back of a contract that loses no body is written as the contract. -/
theorem script_eq_of_keeps {c d : Contract} (hid : d.id = c.id) (hname : d.name = c.name)
    (hrequest : d.request.toConstraint = c.request.toConstraint.settled .both)
    (hresponse : d.response.toConstraint = c.response.toConstraint.settled .both) :
    d.script = c.script := by
  have htree : d.toConstraint = c.toConstraint.settled .both := by
    rw [toConstraint, toConstraint, hid, hname, hrequest, hresponse]
    rfl
  have hchars : d.toConstraint.chars (some 0) = c.toConstraint.chars (some 0) := by
    rw [htree, Constraint.chars_settled]
  exact congrArg (fun cs => String.ofList ("module.exports = ".toList ++ cs ++ [';', '\n'])) hchars

/-- Contracts that are written alike are settled alike. -/
theorem settled_eq_of_script [Library] {c d : Contract} (hc : c.Canonical sides)
    (hd : d.Canonical sides) (h : d.script = c.script) :
    d.toConstraint.settled .both = c.toConstraint.settled .both := by
  -- limits that admit the text as the script of either contract
  let e := c.toConstraint.expression
  let e' := d.toConstraint.expression
  obtain ⟨size, hsize⟩ : ∃ size, size = c.script.utf8ByteSize := ⟨_, rfl⟩
  let limits : Limits := ⟨size, max e.depth e'.depth, max e.nodes e'.nodes, false⟩
  have hread : Script.run limits Bindings.standard c.script = .ok (c.toConstraint.settled .both) :=
    hc.run_script binds_standard ⟨hsize.ge, le_max_left .., le_max_left .., rfl⟩
  have hread' : Script.run limits Bindings.standard d.script = .ok (d.toConstraint.settled .both) :=
    hd.run_script binds_standard ⟨h ▸ hsize.ge, le_max_right .., le_max_right .., rfl⟩
  rw [h, hread] at hread'
  exact (Except.ok.inj hread').symm

theorem field?_request (s : Sidedness) (c : Contract) :
    (c.toConstraint.settled s).field? "request" = some (c.request.toConstraint.settled s) := rfl

theorem field?_response (s : Sidedness) (c : Contract) :
    (c.toConstraint.settled s).field? "response" = some (c.response.toConstraint.settled s) := rfl

/-- Contracts that are written alike have the same bodies, settled. -/
theorem bodies_of_script [Library] {c d : Contract} (hc : c.Canonical sides)
    (hd : d.Canonical sides) (h : d.script = c.script) :
    d.request.body.map (Constraint.settled .both) = c.request.body.map (Constraint.settled .both)
      ∧ d.response.body.map (Constraint.settled .both)
        = c.response.body.map (Constraint.settled .both) := by
  have hsettled := settled_eq_of_script hc hd h
  have hrequest := congrArg (Constraint.field? "request") hsettled
  have hresponse := congrArg (Constraint.field? "response") hsettled
  rw [field?_request, field?_request, Option.some.injEq] at hrequest
  rw [field?_response, field?_response, Option.some.injEq] at hresponse
  rw [← RequestRule.field?_body, ← RequestRule.field?_body, ← ResponseRule.field?_body,
    ← ResponseRule.field?_body, hrequest, hresponse]
  exact ⟨rfl, rfl⟩

theorem not_lost_of_settledBody {body : Option Constraint}
    (h : (settledBody .both body).map (Constraint.settled .both)
      = body.map (Constraint.settled .both)) : ¬Lost body := by
  intro hlost
  rw [hlost.settledBody] at h
  obtain ⟨c, hc, -⟩ := hlost
  rw [Option.mem_def.mp hc] at h
  cases h

/-- The canonical script of a compiled or derived contract is accepted, and it denotes the contract,
being its own canonical script and handling the same requests, if and only if no body is lost. -/
theorem compile_script_iff [Library] {c : Contract} (h : Obtained c)
    (hallow : limits.Allow c.script c.toConstraint.expression) (draws : Draws) :
    ∃ d, ((compile limits c.script).run draws).1 = .ok d
      ∧ ((d.script = c.script ∧ ∀ now basePath r, d.handles now basePath r
        = c.handles now basePath r) ↔ ¬LosesBody c) := by
  have hc := h.canonical
  have hread := hc.compileWith_script binds_standard hallow (Constraint.Uuid.draw.run draws).1
  rw [← compile_run] at hread
  refine ⟨_, hread, ?_⟩
  constructor
  -- what is read back has no such body, so it cannot be written alike
  · rintro ⟨hscript, -⟩ hlost
    have hd := Obtained.canonical (.compiled hread)
    obtain ⟨hrequest, hresponse⟩ := bodies_of_script hc hd hscript
    rcases hlost with hlost | hlost
    · exact not_lost_of_settledBody hrequest hlost
    · exact not_lost_of_settledBody hresponse hlost
  · intro hkeeps
    have hrequest := settledBody_of_not_lost fun hlost => hkeeps (.inl hlost)
    have hresponse := settledBody_of_not_lost fun hlost => hkeeps (.inr hlost)
    refine ⟨script_eq_of_keeps rfl rfl (RequestRule.toConstraint_settled hrequest)
      (ResponseRule.toConstraint_settled hresponse), fun now basePath r => ?_⟩
    exact handles_congr (hc.request.evaluate_settled hrequest (.refl _))

section Simple

attribute [local instance] Library.simple

theorem compile_script_iff_lost : ∃ c d, ((compile {}
      "\x7brequest: \x7bbody: stubValue(\x7b\x7d)\x7d\x7d").run ⟨fun _ => 0, 0⟩).1 = .ok c
    ∧ ((compile {} c.script).run ⟨fun _ => 0, 0⟩).1 = .ok d
    ∧ ¬(d.script = c.script ∧ ∀ now basePath r, d.handles now basePath r
      = c.handles now basePath r) := by
  obtain ⟨c, hcompile, hchecks⟩ : ∃ c, ((compile {}
        "\x7brequest: \x7bbody: stubValue(\x7b\x7d)\x7d\x7d").run ⟨fun _ => 0, 0⟩).1 = .ok c
      ∧ (decide (Limits.Allow {} c.script c.toConstraint.expression)
        && decide (Lost c.request.body)) = true :=
    exists_ok_of_any (by decide +kernel)
  simp only [Bool.and_eq_true, decide_eq_true_eq] at hchecks
  obtain ⟨hallow, hlost⟩ := hchecks
  obtain ⟨d, hd, hiff⟩ := compile_script_iff (.compiled hcompile) hallow ⟨fun _ => 0, 0⟩
  exact ⟨c, d, hcompile, hd, fun hsame => hiff.mp hsame (.inl hlost)⟩

end Simple

end Contract

end HttpContract
