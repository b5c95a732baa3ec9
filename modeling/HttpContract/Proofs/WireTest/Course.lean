import HttpContract.Proofs.Basic
import HttpContract.WireTest.Dialogue

/-!
# WireTest — how dialogues go

A dialogue that is not broken off goes by exchanges, a question and its answer each (`Goes`), and
whoever answers, it goes by the exchanges that are had with him (`goes_exchanges`). Dialogues that
are held one after another go by the exchanges of each in turn; if they are held together, the
exchanges of one are woven into those of the others, each in its order, whatever the schedule says
(`Goes.of_together`). Where the answers do not matter to whether dialogues are broken off, several
of them are if one of them is (`BreaksIff.together`). With someone who answers a question in the
same way whenever it is asked, every dialogue comes to what it comes to alone (`answered_together`).
-/

namespace HttpContract

variable {Q A α β σ : Type}

/-! ## Weaving -/

/-- A list that goes through several lists at once, each of them in its order. -/
inductive Woven : List (List α) → List α → Prop where
  | done {parts : List (List α)} (h : ∀ part ∈ parts, part = []) : Woven parts []
  | next {before behind : List (List α)} {a : α} {part whole : List α}
    (h : Woven (before ++ part :: behind) whole) :
    Woven (before ++ (a :: part) :: behind) (a :: whole)

theorem Woven.nil_cons {parts : List (List α)} {whole : List α} (h : Woven parts whole) :
    Woven ([] :: parts) whole := by
  induction h with
  | done h => exact .done (List.forall_mem_cons.mpr ⟨rfl, h⟩)
  | @next before behind a part whole _ ih => exact @next _ ([] :: before) behind a part whole ih

/-- Lists one after another are a way to go through them. -/
theorem woven_flatten (parts : List (List α)) : Woven parts parts.flatten := by
  induction parts with
  | nil => exact .done (List.forall_mem_nil _)
  | cons part parts ih =>
    induction part with
    | nil => exact ih.nil_cons
    | cons a part ihp => exact @Woven.next _ [] parts a part _ ihp

namespace Dialogue

/-! ## Exchanges -/

/-- What a dialogue comes to, by the exchanges of a question and its answer. One that is broken off
comes to nothing. -/
inductive Goes : Dialogue Q A α → List (Q × A) → α → Prop where
  | done (a : α) : Goes (.done a) [] a
  | ask {q : Q} {next : A → Dialogue Q A α} {answer : A} {exchanges : List (Q × A)} {a : α}
    (h : Goes (next answer) exchanges a) : Goes (.ask q next) ((q, answer) :: exchanges) a

/-- The exchanges of a dialogue with someone who answers from a state. -/
def exchanges (answer : σ → Q → A × σ) (s : σ) : Dialogue Q A α → List (Q × A)
  | .done _ => []
  | .broken => []
  | .ask q next => (q, (answer s q).1) :: exchanges answer (answer s q).2 (next (answer s q).1)

/-- A dialogue goes by the exchanges that are had, whoever answers. -/
theorem goes_exchanges {answer : σ → Q → A × σ} {s : σ} {d : Dialogue Q A α} {a : α}
    (h : (d.hold answer s).result = some a) : Goes d (d.exchanges answer s) a := by
  induction d generalizing s with
  | done a =>
    cases h
    exact .done a
  | broken => cases h
  | ask q next ih => exact .ask (ih _ h)

/-- The questions of the exchanges are those that are asked. -/
theorem exchanges_asked (answer : σ → Q → A × σ) (s : σ) (d : Dialogue Q A α) :
    (d.hold answer s).asked = (d.exchanges answer s).map (·.1) := by
  induction d generalizing s with
  | done a => rfl
  | broken => rfl
  | ask q next ih => rw [hold, exchanges, List.map_cons, ← ih]

theorem Goes.of_bind {d : Dialogue Q A α} {f : α → Dialogue Q A β} {whole : List (Q × A)} {b : β}
    (h : Goes (d.bind f) whole b) :
    ∃ a first rest, Goes d first a ∧ Goes (f a) rest b ∧ whole = first ++ rest := by
  induction d generalizing whole with
  | done a => exact ⟨a, [], whole, .done a, h, rfl⟩
  | broken => cases h
  | ask q next ih =>
    obtain _ | h := h
    obtain ⟨a, first, rest, hfirst, hrest, rfl⟩ := ih _ h
    exact ⟨a, _, rest, .ask hfirst, hrest, rfl⟩

/-- A dialogue whose result is only rewritten goes as it would without. -/
theorem Goes.of_map {d : Dialogue Q A α} {f : α → β} {whole : List (Q × A)} {b : β}
    (h : Goes (d.bind fun a => .done (f a)) whole b) : ∃ a, Goes d whole a ∧ b = f a := by
  obtain ⟨a, first, rest, hfirst, hrest, rfl⟩ := h.of_bind
  obtain _ | _ := hrest
  exact ⟨a, by rwa [List.append_nil], rfl⟩

/-! ## Several dialogues -/

/-- How each of several dialogues goes: its exchanges and its result. -/
abbrev AllGo (ds : List (Dialogue Q A α)) (courses : List (List (Q × A) × α)) : Prop :=
  List.Forall₂ (fun d course => Goes d course.1 course.2) ds courses

/-- What holds of how each of some numbered dialogues goes holds of all of them. -/
theorem AllGo.numbered {f : β × Nat → Dialogue Q A α} {P : β → List (Q × A) → α → Prop}
    {bs : List β} {n : Nat} {courses : List (List (Q × A) × α)}
    (h : AllGo ((bs.zipIdx n).map f) courses)
    (hP : ∀ b ∈ bs, ∀ i exchanges a, Goes (f (b, i)) exchanges a → P b exchanges a) :
    List.Forall₂ (fun b course => P b course.1 course.2) bs courses := by
  induction bs generalizing n courses with
  | nil =>
    cases h
    exact .nil
  | cons b bs ih =>
    rw [List.zipIdx_cons, List.map_cons] at h
    obtain _ | ⟨hb, h⟩ := h
    rw [List.forall_mem_cons] at hP
    exact .cons (hP.1 n _ _ hb) (ih h hP.2)

theorem Goes.of_inTurn {ds : List (Dialogue Q A α)} {whole : List (Q × A)} {results : List α}
    (h : Goes (inTurn ds) whole results) :
    ∃ courses, AllGo ds courses ∧ whole = (courses.map (·.1)).flatten
      ∧ results = courses.map (·.2) := by
  induction ds generalizing whole results with
  | nil =>
    cases h
    exact ⟨[], .nil, rfl, rfl⟩
  | cons d ds ih =>
    obtain ⟨a, first, rest, hd, hrest, rfl⟩ := Goes.of_bind h
    obtain ⟨as, hds, rfl⟩ := Goes.of_map hrest
    obtain ⟨courses, hall, rfl, rfl⟩ := ih hds
    exact ⟨(first, a) :: courses, .cons hd hall, rfl, rfl⟩

/-- Dialogues that are held together go by exchanges of their own, which are woven. -/
theorem Goes.of_together {schedule : List Nat} {ds : List (Dialogue Q A α)} {whole : List (Q × A)}
    {results : List α} (h : Goes (together schedule ds) whole results) :
    ∃ courses, AllGo ds courses ∧ Woven (courses.map (·.1)) whole
      ∧ results = courses.map (·.2) := by
  induction schedule generalizing ds whole with
  | nil =>
    obtain ⟨courses, hall, rfl, hresults⟩ := Goes.of_inTurn h
    exact ⟨courses, hall, woven_flatten _, hresults⟩
  | cons i schedule ih =>
    rw [together] at h
    split at h
    · rename_i q next hi
      obtain _ | @⟨_, _, answer, whole, _, h⟩ := h
      obtain ⟨before, behind, rfl, hset⟩ := split_at hi
      obtain ⟨courses, hall, hwoven, rfl⟩ := ih h
      rw [hset] at hall
      obtain ⟨coursesBefore, _, hbefore, _ | ⟨hd, hbehind⟩, rfl⟩ := forall₂_append_left hall
      rw [List.map_append, List.map_cons] at hwoven
      refine ⟨coursesBefore ++ ((q, answer) :: _, _) :: _,
        List.rel_append hbefore (.cons (.ask hd) hbehind), ?_, ?_⟩
      · rw [List.map_append, List.map_cons]
        exact hwoven.next
      · rw [List.map_append, List.map_append, List.map_cons, List.map_cons]
    · cases h
    · exact ih h

/-! ## Breaking off -/

/-- Whoever answers, a dialogue is broken off in the end exactly if `p`. -/
inductive BreaksIff (p : Prop) : Dialogue Q A α → Prop
  | done (a : α) (h : ¬p) : BreaksIff p (.done a)
  | broken (h : p) : BreaksIff p .broken
  | ask {q : Q} {next : A → Dialogue Q A α} (h : ∀ answer, BreaksIff p (next answer)) :
    BreaksIff p (.ask q next)

section BreaksIff

variable {p q : Prop} {d : Dialogue Q A α} {ds : List (Dialogue Q A α)} {ps : List Prop}

theorem BreaksIff.of_iff (h : d.BreaksIff p) (hpq : p ↔ q) : d.BreaksIff q := propext hpq ▸ h

theorem BreaksIff.result_iff (h : d.BreaksIff p) (answer : σ → Q → A × σ) (s : σ) :
    (d.hold answer s).result = none ↔ p := by
  induction h generalizing s with
  | done a h => exact iff_of_false nofun h
  | broken h => exact iff_of_true rfl h
  | ask _ ih => exact ih _ _

theorem BreaksIff.bind {f : α → Dialogue Q A β} (h : d.BreaksIff p)
    (hf : ∀ a, (f a).BreaksIff q) : (d.bind f).BreaksIff (p ∨ q) := by
  induction h with
  | done a h => exact (hf a).of_iff (or_iff_right h).symm
  | broken h => exact .broken (.inl h)
  | ask _ ih => exact .ask ih

theorem BreaksIff.map {f : α → β} (h : d.BreaksIff p) :
    (d.bind fun a => .done (f a)).BreaksIff p := by
  have hdone : ∀ a, (Dialogue.done (f a) : Dialogue Q A β).BreaksIff False :=
    fun a => .done _ not_false
  exact (h.bind hdone).of_iff (iff_of_eq (or_false p))

theorem BreaksIff.inTurn (h : List.Forall₂ (fun d p => BreaksIff p d) ds ps) :
    (inTurn ds).BreaksIff (∃ p ∈ ps, p) := by
  induction h with
  | nil => exact .done [] fun ⟨_, hmem, _⟩ => nomatch hmem
  | cons hd _ ih =>
    exact (hd.bind fun _ => ih.map).of_iff (List.exists_mem_cons_iff (fun p => p) _ _).symm

/-- Dialogues that are held together are broken off if one of them is. -/
theorem BreaksIff.together (schedule : List Nat)
    (h : List.Forall₂ (fun d p => BreaksIff p d) ds ps) :
    (together schedule ds).BreaksIff (∃ p ∈ ps, p) := by
  induction schedule generalizing ds with
  | nil => exact .inTurn h
  | cons i schedule ih =>
    rw [Dialogue.together]
    split
    · rename_i q next hi
      obtain ⟨before, behind, rfl, hset⟩ := split_at hi
      obtain ⟨psBefore, _, hbefore, _ | ⟨_ | _ | hnext, hbehind⟩, rfl⟩ := forall₂_append_left h
      refine .ask fun answer => ?_
      simp only [hset]
      exact ih (List.rel_append hbefore (.cons (hnext answer) hbehind))
    · rename_i hi
      obtain ⟨before, behind, rfl, -⟩ := split_at hi
      obtain ⟨psBefore, _, hbefore, _ | ⟨_ | hp, hbehind⟩, rfl⟩ := forall₂_append_left h
      exact .broken ⟨_, List.mem_append_right _ List.mem_cons_self, hp⟩
    · exact ih h

theorem forall₂_breaksIff {bs : List β} {f : β → Dialogue Q A α} {P : β → Prop}
    (h : ∀ b ∈ bs, (f b).BreaksIff (P b)) :
    List.Forall₂ (fun d p => BreaksIff p d) (bs.map f) (bs.map P) := by
  rw [List.forall₂_map_left_iff, List.forall₂_map_right_iff, List.forall₂_same]
  exact h

theorem BreaksIff.inTurn_map {bs : List β} {f : β → Dialogue Q A α} {P : β → Prop}
    (h : ∀ b ∈ bs, (f b).BreaksIff (P b)) :
    (Dialogue.inTurn (bs.map f)).BreaksIff (∃ b ∈ bs, P b) := by
  refine (BreaksIff.inTurn (forall₂_breaksIff h)).of_iff ?_
  simp only [List.mem_map, exists_exists_and_eq_and]

theorem BreaksIff.together_map (schedule : List Nat) {bs : List β} {f : β → Dialogue Q A α}
    {P : β → Prop} (h : ∀ b ∈ bs, (f b).BreaksIff (P b)) :
    (Dialogue.together schedule (bs.map f)).BreaksIff (∃ b ∈ bs, P b) := by
  refine (BreaksIff.together schedule (forall₂_breaksIff h)).of_iff ?_
  simp only [List.mem_map, exists_exists_and_eq_and]

end BreaksIff

/-! ## Steady answers -/

/-- What a dialogue comes to if each question has an answer of its own, unless it is broken off. -/
def answered (f : Q → A) : Dialogue Q A α → Option α
  | .done a => some a
  | .broken => none
  | .ask q next => answered f (next (f q))

@[simp] theorem answered_done (f : Q → A) (a : α) :
    (done a : Dialogue Q A α).answered f = some a := rfl

theorem hold_answered {f : Q → A} {answer : σ → Q → A × σ} (h : ∀ s q, (answer s q).1 = f q) (s : σ)
    (d : Dialogue Q A α) : (d.hold answer s).result = d.answered f := by
  induction d generalizing s with
  | done a => rfl
  | broken => rfl
  | ask q next ih => rw [hold, answered, ← h s q, ← ih]

@[simp] theorem answered_bind (f : Q → A) (d : Dialogue Q A α) (g : α → Dialogue Q A β) :
    (d.bind g).answered f = (d.answered f).bind fun a => (g a).answered f := by
  induction d with
  | done a => rfl
  | broken => rfl
  | ask q next ih => exact ih (f q)

theorem answered_inTurn (f : Q → A) (ds : List (Dialogue Q A α)) :
    (inTurn ds).answered f = ds.mapM (answered f) := by
  induction ds with
  | nil => rfl
  | cons d ds ih =>
    simp only [inTurn, answered_bind, ih, answered_done, List.mapM_cons]
    rfl

/-- With steady answers no schedule matters. -/
theorem answered_together (f : Q → A) (schedule : List Nat) (ds : List (Dialogue Q A α)) :
    (together schedule ds).answered f = ds.mapM (answered f) := by
  induction schedule generalizing ds with
  | nil => exact answered_inTurn f ds
  | cons i schedule ih =>
    rw [together]
    split
    · rename_i q next hi
      obtain ⟨before, behind, rfl, hset⟩ := split_at hi
      rw [answered, ih, hset, List.mapM_append, List.mapM_append, List.mapM_cons, List.mapM_cons,
        answered]
    · rename_i hi
      obtain ⟨before, behind, rfl, -⟩ := split_at hi
      rw [List.mapM_append, List.mapM_cons, answered, answered]
      cases before.mapM (answered f) <;> rfl
    · exact ih ds

end Dialogue

end HttpContract
