import HttpContract.Library.Simple
import HttpContract.Proofs.Contract.Reread

/-!
# Contract — one side of a contract

The contract that is left of a contract on one side is made from its canonical script, which is read
with each two-sided value being bound to that side. Its parts are, in every context, what the parts
of the contract are in a context of that side (`derive_evaluate`), so the derived stub contract
handles the same requests and responds alike.
-/

namespace HttpContract

open Calendar (Instant)
open Constraint (Agree Binds binds_bind)
open Script (Bindings Limits)

variable {sides : Sidedness → Prop}

namespace Contract

/-! ## Deriving -/

/-- The kind of two-sided values that a mode takes one side of. -/
def sideOf : Mode → Sidedness
  | .stub => .stubOnly
  | .test => .testOnly

theorem agree_sideOf (document : Json) (m m' : Mode) :
    Agree (sideOf m) ⟨document, m'⟩ ⟨document, m⟩ := by
  refine ⟨rfl, fun stub test => ?_⟩
  cases m <;> rfl

/-- Deriving binds two-sided values to the side of its mode. -/
theorem binds_sideOf (m : Mode) :
    Binds (Bindings.standard.bind "value" (sideBuiltin m)) (sideOf m) := by
  cases m with
  | stub => exact binds_bind .stubOnly
  | test => exact binds_bind .testOnly

/-- The derived contract is what is read back with two-sided values of one kind. -/
theorem Canonical.derive_eq [Library] {c : Contract} (h : c.Canonical sides) {limits : Limits}
    (hallow : limits.Allow c.script c.toConstraint.expression) (m : Mode) :
    ∃ source, derive limits c m = .ok
      ⟨c.id, c.name, c.request.settled (sideOf m), c.response.settled (sideOf m), source⟩ := by
  rw [derive]
  simp only [h.compileWith_script (binds_sideOf m) hallow c.id]
  exact ⟨_, rfl⟩

/-- A contract of a script without one-sided values has both sides: the derived contract has its
identifier, name and methods, and its parts are in every context what those of the contract are in
the context of that side. So the stub of the derived one answers as the stub of the contract. -/
theorem derive_evaluate [Library] {limits₀ limits : Limits} {source : String} {draws : Draws}
    {c : Contract} (h : ((compile limits₀ source).run draws).1 = .ok c)
    (hstub : ¬Script.Calls source "stubValue") (htest : ¬Script.Calls source "testValue")
    (hallow : limits.Allow c.script c.toConstraint.expression) (m : Mode) :
    ∃ d, derive limits c m = .ok d ∧ d.id = c.id ∧ d.name = c.name
      ∧ d.request.methods = c.request.methods
      ∧ (∀ document m', d.request.evaluate ⟨document, m'⟩ = c.request.evaluate ⟨document, m⟩
        ∧ d.response.evaluate ⟨document, m'⟩ = c.response.evaluate ⟨document, m⟩)
      ∧ (m = .stub → ∀ now basePath r, d.handles now basePath r = c.handles now basePath r
        ∧ d.respond now basePath r = c.respond now basePath r) := by
  have hc := compile_canonical h hstub htest
  obtain ⟨text, hderive⟩ := hc.derive_eq hallow m
  have hparts : ∀ document m',
      (c.request.settled (sideOf m)).evaluate ⟨document, m'⟩ = c.request.evaluate ⟨document, m⟩
        ∧ (c.response.settled (sideOf m)).evaluate ⟨document, m'⟩
          = c.response.evaluate ⟨document, m⟩ := by
    intro document m'
    have hctx := agree_sideOf document m m'
    exact ⟨hc.request.evaluate_settled (settledBody_bothSided hc.request.body) hctx,
      hc.response.evaluate_settled (settledBody_bothSided hc.response.body) hctx⟩
  refine ⟨_, hderive, rfl, rfl, rfl, hparts, ?_⟩
  rintro rfl now basePath r
  obtain ⟨hrequest, hresponse⟩ := hparts (r.document basePath) .stub
  exact ⟨handles_congr hrequest, respond_congr hresponse⟩

section Simple

attribute [local instance] Library.simple

theorem derive_evaluate_stub : ∃ c d, ((compile {}
      "\x7bresponse: \x7bbody: value(\x7bstub: value(\x7btest: 1\x7d)\x7d)\x7d\x7d").run
        ⟨fun _ => 0, 0⟩).1 = .ok c
    ∧ derive {} c .stub = .ok d
    ∧ (∀ document m', d.response.evaluate ⟨document, m'⟩ = c.response.evaluate ⟨document, .stub⟩)
    ∧ ∀ now basePath r, d.respond now basePath r = c.respond now basePath r := by
  obtain ⟨c, hcompile, hallow⟩ : ∃ c, ((compile {}
        "\x7bresponse: \x7bbody: value(\x7bstub: value(\x7btest: 1\x7d)\x7d)\x7d\x7d").run
          ⟨fun _ => 0, 0⟩).1 = .ok c
      ∧ decide (Limits.Allow {} c.script c.toConstraint.expression) = true :=
    exists_ok_of_any (by decide +kernel)
  obtain ⟨d, hderive, -, -, -, hparts, hstub⟩ := derive_evaluate hcompile (by decide +kernel)
    (by decide +kernel) (of_decide_eq_true hallow) .stub
  exact ⟨c, d, hcompile, hderive, fun document m' => (hparts document m').2,
    fun now basePath r => (hstub rfl now basePath r).2⟩

end Simple

end Contract

end HttpContract
