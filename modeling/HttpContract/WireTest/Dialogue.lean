/-!
# WireTest.Dialogue — computations that ask and go on with the answers

A dialogue is a computation that asks questions of someone else and ends with a result, unless it is
broken off. It says nothing of who answers. Dialogues can be held one after another or a question
here and a question there, as a schedule says; one that is broken off breaks the others off too.
-/

namespace HttpContract

/-- A computation that asks questions and goes on with the answers. -/
inductive Dialogue (Q A α : Type) where
  | done (result : α)
  | broken
  | ask (question : Q) (next : A → Dialogue Q A α)

namespace Dialogue

variable {Q A α β γ σ : Type}

/-- Goes on with the result of a dialogue. -/
def bind (d : Dialogue Q A α) (f : α → Dialogue Q A β) : Dialogue Q A β :=
  match d with
  | done a => f a
  | broken => broken
  | ask q next => ask q fun answer => (next answer).bind f

instance : Monad (Dialogue Q A) where
  pure := done
  bind := bind

@[simp] theorem pure_eq (a : α) : (pure a : Dialogue Q A α) = done a := rfl

@[simp] theorem done_bind (a : α) (f : α → Dialogue Q A β) : (done a).bind f = f a := rfl

@[simp] theorem broken_bind (f : α → Dialogue Q A β) : (broken : Dialogue Q A α).bind f = broken :=
  rfl

@[simp] theorem ask_bind (q : Q) (next : A → Dialogue Q A α) (f : α → Dialogue Q A β) :
    (ask q next).bind f = ask q fun answer => (next answer).bind f := rfl

/-- Asks one question; the answer is the result. -/
def question (q : Q) : Dialogue Q A A := ask q done

/-! ## Answering -/

/-- How a dialogue went: its result unless it was broken off, what it asked and how it left the one
who answered. -/
structure Course (Q α σ : Type) where
  result : Option α
  asked : List Q
  state : σ

/-- Holds a dialogue with someone who answers from a state. -/
def hold (answer : σ → Q → A × σ) (s : σ) : Dialogue Q A α → Course Q α σ
  | done a => ⟨some a, [], s⟩
  | broken => ⟨none, [], s⟩
  | ask q next =>
    let (a, s) := answer s q
    let rest := hold answer s (next a)
    { rest with asked := q :: rest.asked }

/-! ## Several dialogues -/

/-- Holds dialogues one after another. -/
def inTurn : List (Dialogue Q A α) → Dialogue Q A (List α)
  | [] => done []
  | d :: rest => d.bind fun a => (inTurn rest).bind fun as => done (a :: as)

/-- Holds dialogues together. The schedule gives the place of the one that goes on next; at its end
the open ones are ended in their order. -/
def together : List Nat → List (Dialogue Q A α) → Dialogue Q A (List α)
  | [], ds => inTurn ds
  | i :: schedule, ds =>
    match ds[i]? with
    | some (ask q next) => ask q fun answer => together schedule (ds.set i (next answer))
    | some broken => broken
    | _ => together schedule ds

end Dialogue

end HttpContract
