import HttpContract.Constraint.Text

/-!
# Random — what every draw yields

`Sampler.Yields draw P` says that `draw` gives a value with the property `P` from every source of
random numbers, and `Gives` the same of a computation that may fail, whenever it gives a value;
`Throws` is about how it ends without one. For attempts, `Fails` is about the reasons that they
give. They follow the parts of a computation step by step.
-/

namespace HttpContract

variable {α β : Type}

namespace Sampler

/-- Every value that a computation draws has a property. -/
def Yields (draw : Sampler α) (P : α → Prop) : Prop := ∀ draws, P (draw draws).1

theorem Yields.run {P : α → Prop} {draw : Sampler α} (h : Yields draw P) (draws : Draws) :
    P (draw.run draws).1 := h draws

theorem run_map (f : α → β) (draw : Sampler α) (draws : Draws) :
    ((do let a ← draw; return f a : Sampler β).run draws).1 = f (draw.run draws).1 := rfl

theorem Yields.pure {P : α → Prop} {a : α} (h : P a) : Yields (pure a) P := fun _ => h

theorem Yields.bind {P : α → Prop} {Q : β → Prop} {draw : Sampler α} {f : α → Sampler β}
    (h : Yields draw P) (hf : ∀ a, P a → Yields (f a) Q) : Yields (draw >>= f) Q :=
  fun draws => hf _ (h draws) (draw draws).2

theorem Yields.mono {P Q : α → Prop} {draw : Sampler α} (h : Yields draw P)
    (hPQ : ∀ a, P a → Q a) : Yields draw Q := fun draws => hPQ _ (h draws)

theorem yields_below {n : Nat} (hn : 0 < n) : Yields (below n) (· < n) :=
  fun _ => Nat.mod_lt _ hn

theorem yields_between {lo hi : Int} (h : lo ≤ hi) :
    Yields (between lo hi) fun n => lo ≤ n ∧ n ≤ hi :=
  (yields_below (Nat.succ_pos _)).bind fun offset hoffset => .pure (by omega)

theorem yields_choose {fallback : α} {xs : List α} (h : xs ≠ []) :
    Yields (choose fallback xs) (· ∈ xs) :=
  (yields_below (List.length_pos_iff.mpr h)).bind fun i hi => .pure <| by
    rw [List.getD_eq_getElem?_getD, List.getElem?_eq_getElem hi]
    exact List.getElem_mem hi

theorem yields_times {P : α → Prop} {draw : Sampler α} (h : Yields draw P) (n : Nat) :
    Yields (times n draw) fun xs => xs.length = n ∧ ∀ x ∈ xs, P x := by
  induction n with
  | zero => exact .pure (by simp)
  | succ n ih =>
    refine h.bind fun x hx => ih.bind fun rest hrest => .pure ?_
    simpa [hrest.1] using ⟨hx, hrest.2⟩

theorem yields_until {accept : α → Bool} {draw : Sampler α} (attempts : Nat) :
    Yields (until? accept draw attempts) fun r => ∀ x ∈ r, accept x = true := by
  induction attempts with
  | zero => exact .pure (by simp)
  | succ n ih =>
    have hany : Yields draw fun _ => True := fun _ => trivial
    refine hany.bind fun x _ => ?_
    split
    case isTrue haccept => exact .pure (by simpa using haccept)
    case isFalse => exact ih

end Sampler

/-! ## Computations that may fail -/

section Failing

variable {ε : Type} {P : α → Prop} {Q : β → Prop}

theorem run_bind (g : ExceptT ε Sampler α) (f : α → ExceptT ε Sampler β) (draws : Draws) :
    (g >>= f).run draws = match g.run draws with
      | (.ok a, rest) => (f a).run rest
      | (.error e, rest) => (.error e, rest) := by
  rcases hr : g.run draws with ⟨r, rest⟩
  have h : (g >>= f).run draws
      = ((ExceptT.bindCont f (g.run draws).1 : Sampler _) (g.run draws).2) := rfl
  rw [h, hr]
  cases r <;> rfl

/-- A sequence gives a value exactly if both steps do. -/
theorem run_bind_ok_iff {g : ExceptT ε Sampler α} {f : α → ExceptT ε Sampler β}
    {draws behind : Draws} {b : β} :
    (g >>= f).run draws = (.ok b, behind)
      ↔ ∃ a rest, g.run draws = (.ok a, rest) ∧ (f a).run rest = (.ok b, behind) := by
  rw [run_bind]
  rcases g.run draws with ⟨e | a, rest⟩
  · exact ⟨nofun, fun ⟨_, _, hg, _⟩ => nomatch hg⟩
  · constructor
    · exact fun h => ⟨a, rest, rfl, h⟩
    · rintro ⟨_, _, hg, h⟩
      cases hg
      exact h

/-- A sequence fails exactly if a step does. -/
theorem run_bind_error_iff {g : ExceptT ε Sampler α} {f : α → ExceptT ε Sampler β}
    {draws : Draws} {e : ε} :
    ((g >>= f).run draws).1 = .error e ↔ (g.run draws).1 = .error e
      ∨ ∃ a rest, g.run draws = (.ok a, rest) ∧ ((f a).run rest).1 = .error e := by
  rw [run_bind]
  rcases g.run draws with ⟨e' | a, rest⟩
  · constructor
    · intro h
      cases h
      exact .inl rfl
    · rintro (h | ⟨_, _, hg, -⟩)
      · cases h
        rfl
      · cases hg
  · constructor
    · exact fun h => .inr ⟨a, rest, rfl, h⟩
    · rintro (h | ⟨_, _, hg, h⟩)
      · cases h
      · cases hg
        exact h

/-- Every value that a computation gives has a property. -/
def Gives (g : ExceptT ε Sampler α) (P : α → Prop) : Prop :=
  ∀ draws a, (g.run draws).1 = .ok a → P a

theorem Gives.pure {a : α} (h : P a) : Gives (pure a : ExceptT ε Sampler α) P := by
  intro draws b hb
  cases hb
  exact h

theorem Gives.throw {e : ε} : Gives (throw e : ExceptT ε Sampler α) P := by
  intro draws a ha
  cases ha

theorem Gives.bind {g : ExceptT ε Sampler α} {f : α → ExceptT ε Sampler β} (h : Gives g P)
    (hf : ∀ a, P a → Gives (f a) Q) : Gives (g >>= f) Q := by
  intro draws b hb
  rw [run_bind] at hb
  rcases hr : g.run draws with ⟨r, rest⟩
  rw [hr] at hb
  cases r with
  | ok a => exact hf a (h draws a (by rw [hr])) rest b hb
  | error e => cases hb

theorem Gives.mono {P Q : α → Prop} {g : ExceptT ε Sampler α} (h : Gives g P)
    (hPQ : ∀ a, P a → Q a) : Gives g Q := fun draws a ha => hPQ a (h draws a ha)

/-- Every failure of a computation has a property. -/
def Throws (g : ExceptT ε Sampler α) (E : ε → Prop) : Prop :=
  ∀ draws e, (g.run draws).1 = .error e → E e

variable {E : ε → Prop}

theorem Throws.pure {a : α} : Throws (pure a : ExceptT ε Sampler α) E := by
  intro draws e he
  cases he

theorem Throws.throw {e : ε} (h : E e) : Throws (throw e : ExceptT ε Sampler α) E := by
  intro draws e' he
  cases he
  exact h

theorem Throws.lift {draw : Sampler α} : Throws (ExceptT.lift draw : ExceptT ε Sampler α) E := by
  intro draws e he
  have hrun : ((ExceptT.lift draw : ExceptT ε Sampler α).run draws).1 = .ok (draw draws).1 := rfl
  cases hrun.symm.trans he

theorem Throws.bind {g : ExceptT ε Sampler α} {f : α → ExceptT ε Sampler β} (h : Throws g E)
    (hf : ∀ a, Throws (f a) E) : Throws (g >>= f) E := by
  intro draws e he
  rw [run_bind] at he
  rcases hr : g.run draws with ⟨r, rest⟩
  rw [hr] at he
  cases r with
  | ok a => exact hf a rest e he
  | error e' =>
    cases he
    exact h draws e (by rw [hr])

theorem Throws.mono {E E' : ε → Prop} {g : ExceptT ε Sampler α} (h : Throws g E)
    (hE : ∀ e, E e → E' e) : Throws g E' := fun draws e he => hE e (h draws e he)

end Failing

namespace Attempt

variable {ε δ : Type} {P : α → Prop} {Q : β → Prop}

theorem run_sample_bind (draw : Sampler α) (f : α → Attempt ε β) (draws : Draws) :
    (sample draw >>= f).run draws = (f (draw draws).1).run (draw draws).2 := rfl

/-- A number is drawn from a range unless that is empty. -/
theorem run_between_bind {lo hi : Int} (h : lo ≤ hi) (f : Int → Attempt ε β) (draws : Draws) :
    (between lo hi >>= f).run draws
      = (f (Sampler.between lo hi draws).1).run (Sampler.between lo hi draws).2 := by
  rw [between, if_neg (Int.not_lt.mpr h)]
  rfl

theorem run_mapReason (f : ε → δ) (a : Attempt ε α) (draws : Draws) :
    (a.mapReason f).run draws
      = ((a.run draws).1.mapError (Failure.map f), (a.run draws).2) := rfl

/-- Whether an attempt is broken off. -/
def isBrokenOff : Except (Failure ε) α → Bool
  | .error .brokenOff => true
  | _ => false

theorem isBrokenOff_iff {r : Except (Failure ε) α} :
    isBrokenOff r = true ↔ r = .error .brokenOff := by
  rcases r with (e | -) | a <;> simp [isBrokenOff]

/-! ## Values -/

/-- Every value that an attempt gives has a property. -/
def Yields (g : Attempt ε α) (P : α → Prop) : Prop := Gives g P

theorem Yields.pure {a : α} (h : P a) : Yields (pure a : Attempt ε α) P := Gives.pure h

theorem Yields.fail {e : ε} : Yields (fail e) P := Gives.throw

theorem Yields.breakOff : Yields (breakOff : Attempt ε α) P := Gives.throw

theorem Yields.bind {g : Attempt ε α} {f : α → Attempt ε β} (h : Yields g P)
    (hf : ∀ a, P a → Yields (f a) Q) : Yields (g >>= f) Q := Gives.bind h hf

theorem Yields.mono {P Q : α → Prop} {g : Attempt ε α} (h : Yields g P) (hPQ : ∀ a, P a → Q a) :
    Yields g Q := Gives.mono h hPQ

theorem Yields.and {P Q : α → Prop} {g : Attempt ε α} (hP : Yields g P) (hQ : Yields g Q) :
    Yields g fun a => P a ∧ Q a := fun draws a ha => ⟨hP draws a ha, hQ draws a ha⟩

theorem Yields.sample {draw : Sampler α} (h : draw.Yields P) :
    Yields (sample draw : Attempt ε α) P := by
  intro draws a ha
  have hrun : ((Attempt.sample draw : Attempt ε α).run draws).1 = .ok (draw draws).1 := rfl
  cases hrun.symm.trans ha
  exact h draws

theorem Yields.mapReason {g : Attempt ε α} (h : Yields g P) (f : ε → δ) :
    Yields (g.mapReason f) P := by
  intro draws a ha
  rw [run_mapReason] at ha
  cases hr : (g.run draws).1 with
  | ok b =>
    rw [hr] at ha
    cases ha
    exact h draws a hr
  | error e =>
    rw [hr] at ha
    cases ha

theorem yields_between (lo hi : Int) :
    Yields (between lo hi : Attempt ε Int) fun n => lo ≤ n ∧ n ≤ hi := by
  rw [between]
  split
  case isTrue => exact .breakOff
  case isFalse h => exact .sample (Sampler.yields_between (Int.not_lt.mp h))

/-- An attempt gives a value whatever is drawn, and always this one. -/
def Returns (g : Attempt ε α) (a : α) : Prop := ∀ draws, (g.run draws).1 = .ok a

theorem Returns.pure (a : α) : Returns (pure a : Attempt ε α) a := fun _ => rfl

theorem Returns.bind {g : Attempt ε α} {f : α → Attempt ε β} {a : α} {b : β} (h : Returns g a)
    (hf : Returns (f a) b) : Returns (g >>= f) b := by
  intro draws
  obtain ⟨rest, hrest⟩ : ∃ rest, g.run draws = (.ok a, rest) := ⟨_, Prod.ext (h draws) rfl⟩
  rw [run_bind, hrest]
  exact hf rest

/-! ## Reasons -/

/-- Every reason that an attempt gives has a property. -/
def Fails (g : Attempt ε α) (E : ε → Prop) : Prop :=
  Throws g fun failure => ∀ e, failure = .reason e → E e

variable {E : ε → Prop}

theorem Fails.pure {a : α} : Fails (pure a) E := Throws.pure

theorem Fails.fail {e : ε} (h : E e) : Fails (fail e : Attempt ε α) E :=
  Throws.throw fun _ he => Failure.reason.inj he ▸ h

theorem Fails.breakOff : Fails (breakOff : Attempt ε α) E := Throws.throw nofun

theorem Fails.bind {g : Attempt ε α} {f : α → Attempt ε β} (h : Fails g E)
    (hf : ∀ a, Fails (f a) E) : Fails (g >>= f) E := Throws.bind h hf

theorem Fails.mono {E E' : ε → Prop} {g : Attempt ε α} (h : Fails g E) (hE : ∀ e, E e → E' e) :
    Fails g E' := Throws.mono h fun _ hend e he => hE e (hend e he)

theorem Fails.sample {draw : Sampler α} : Fails (sample draw) E := Throws.lift

theorem Fails.between (lo hi : Int) : Fails (between lo hi) E := by
  rw [Attempt.between]
  split
  case isTrue => exact .breakOff
  case isFalse => exact .sample

end Attempt

/-- A text that is drawn until a test accepts it passes the test. -/
theorem Constraint.Generator.yields_textUntil (kind : String) (draw : Sampler String)
    (accept : String → Bool) :
    (textUntil kind draw accept).Yields fun v => ∃ s, v = .string s ∧ accept s = true :=
  (Attempt.Yields.sample (Sampler.yields_until Error.attempts)).bind fun r hr => by
    cases r with
    | none => exact .fail
    | some s => exact .pure ⟨s, rfl, hr s rfl⟩

end HttpContract
