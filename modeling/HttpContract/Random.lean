/-!
# Random — drawing numbers from a source

A random source is an endless list of numbers with a reading position. A computation that draws
from it is a function of the source, so that statements about generated values range over all
sources, and two computations draw alike if they leave the position alike.

A computation may end without a value. It fails if it gives a reason, and whoever runs it goes on
from there. It is broken off if it asks for something that there is not, such as a time beyond the
calendar: then it tells nothing, and all that waits for it is broken off too.
-/

namespace HttpContract

/-- A source of random numbers and the place of the next one. -/
structure Draws where
  source : Nat → Nat
  position : Nat

/-- A computation that draws random numbers. -/
abbrev Sampler := StateM Draws

namespace Sampler

/-- The next number of the source, brought below `n`. -/
def below (n : Nat) : Sampler Nat := fun draws =>
  (draws.source draws.position % n, { draws with position := draws.position + 1 })

/-- A whole number between two others, both included. -/
def between (lo hi : Int) : Sampler Int := do
  let offset ← below ((hi - lo).toNat + 1)
  return lo + offset

/-- A member of a list; `fallback` stands in for an empty one. -/
def choose {α : Type} (fallback : α) (xs : List α) : Sampler α := do
  let i ← below xs.length
  return xs.getD i fallback

/-- The results of running a computation several times. -/
def times {α : Type} (n : Nat) (draw : Sampler α) : Sampler (List α) :=
  match n with
  | 0 => return []
  | n + 1 => do
    let x ← draw
    let rest ← times n draw
    return x :: rest

/-- Draws candidates until one is accepted, at most `attempts` times. -/
def until? {α : Type} (accept : α → Bool) (draw : Sampler α) : Nat → Sampler (Option α)
  | 0 => return none
  | attempts + 1 => do
    let x ← draw
    if accept x then return some x else until? accept draw attempts

end Sampler

/-! ## Attempts -/

/-- How a computation ends without a value. -/
inductive Failure (ε : Type) where
  | reason (e : ε)
  | brokenOff
deriving DecidableEq

/-- A computation that draws random numbers and may fail or be broken off. -/
abbrev Attempt (ε : Type) := ExceptT (Failure ε) Sampler

/-- A computation that draws random numbers and does not fail, but may be broken off. -/
abbrev Drawing := Attempt Empty

variable {ε δ α : Type}

/-- The end with another reason. -/
def Failure.map (f : ε → δ) : Failure ε → Failure δ
  | reason e => reason (f e)
  | brokenOff => brokenOff

namespace Attempt

/-- The computation of a sampler. -/
def sample (draw : Sampler α) : Attempt ε α := ExceptT.lift draw

/-- The computation that only fails. -/
def fail (e : ε) : Attempt ε α := throw (.reason e)

/-- The computation that is only broken off. -/
def breakOff : Attempt ε α := throw .brokenOff

/-- Draws a whole number between two others, both included. There must be one. -/
def between (lo hi : Int) : Attempt ε Int :=
  if hi < lo then breakOff else sample (Sampler.between lo hi)

/-- The computation with other reasons. -/
def mapReason (f : ε → δ) (a : Attempt ε α) : Attempt δ α :=
  ExceptT.mk do return (← a.run).mapError (Failure.map f)

/-- The value or the reason, unless the computation is broken off. -/
def settled : Except (Failure ε) α → Except (Failure Empty) (Except ε α)
  | .ok a => .ok (.ok a)
  | .error (.reason e) => .ok (.error e)
  | .error .brokenOff => .error .brokenOff

/-- The computation that gives a reason as a result. -/
def settle (a : Attempt ε α) : Drawing (Except ε α) := ExceptT.mk do return settled (← a.run)

end Attempt

end HttpContract
