import HttpContract.Proofs.Binary64.Written
import HttpContract.Script.Lexer

/-!
# Script — the text of a number

What `spanNumber` takes from a text and what `number?` makes of it, for the texts that numbers are
written as: a number without its sign reads back as the same number (`number?_integer`,
`number?_double`), whole numbers staying whole and doubles staying doubles.
-/

namespace HttpContract.Script

open Json (WordInt)
open Json.Number (AllDigits Written allDigits_toDigits digital_writtenDouble value_writtenDouble
  writtenDouble writtenDouble_marked)

/-! ## What ends a token -/

/-- The characters that stand behind numbers and names in written scripts. -/
def delimiters : List Char := [',', ':', ';', '(', ')', ']', '\x7d', ' ', '\n', '\t', '\r']

/-- The text behind a number or a name: it ends or starts with a delimiter. -/
def Delimited (rest : List Char) : Prop := ∀ c ∈ rest.head?, c ∈ delimiters

theorem Delimited.nil : Delimited [] := by
  intro c hc
  cases hc

theorem Delimited.cons {c : Char} {rest : List Char} (h : c ∈ delimiters) :
    Delimited (c :: rest) := by
  intro d hd
  cases hd
  exact h

theorem delimiter_not_numeric {c : Char} (h : c ∈ delimiters) :
    ¬(c.isDigit ∨ c = '.') ∧ ¬(c = 'e' ∨ c = 'E') := by
  have hall : delimiters.all
      (fun c => ¬(c.isDigit ∨ c = '.') ∧ ¬(c = 'e' ∨ c = 'E')) = true := by decide
  exact of_decide_eq_true (List.all_eq_true.mp hall c h)

/-! ## Taking the characters -/

theorem spanNumber_delimited {rest : List Char} (h : Delimited rest) :
    spanNumber rest = ([], rest) := by
  cases rest with
  | nil => rfl
  | cons c rest =>
    obtain ⟨hdigit, hexp⟩ := delimiter_not_numeric (h c rfl)
    unfold spanNumber
    rw [if_neg hdigit, if_neg hexp]

theorem spanNumber_cons {c : Char} (h : c.isDigit ∨ c = '.') (cs : List Char) :
    spanNumber (c :: cs) = (c :: (spanNumber cs).1, (spanNumber cs).2) := by
  rw [spanNumber.eq_def]
  exact if_pos h

theorem spanNumber_digits {ds : List Char} (hds : AllDigits ds) (cs : List Char) :
    spanNumber (ds ++ cs) = (ds ++ (spanNumber cs).1, (spanNumber cs).2) := by
  induction ds with
  | nil => rfl
  | cons d ds ih =>
    have hd : d.isDigit = true := hds d (by simp)
    rw [List.cons_append, spanNumber_cons (.inl hd), ih fun c hc => hds c (by simp [hc])]
    rfl

theorem spanNumber_exponent {mark : Char} {ds rest : List Char} (plus down : Bool)
    (hmark : mark = 'e' ∨ mark = 'E') (hds : AllDigits ds) (hne : ds ≠ []) (h : Delimited rest) :
    spanNumber (mark :: (Written.exponentSign plus down ++ ds) ++ rest)
      = (mark :: (Written.exponentSign plus down ++ ds), rest) := by
  have hspan := spanNumber_digits hds rest
  rw [spanNumber_delimited h, List.append_nil] at hspan
  have hother : ¬(mark.isDigit ∨ mark = '.') := by rcases hmark with rfl | rfl <;> decide
  obtain ⟨d, ds, rfl⟩ := List.exists_cons_of_ne_nil hne
  have hd : ¬(d = '+' ∨ d = '-') := by
    have hdigit := hds d (by simp)
    rintro (rfl | rfl) <;> exact absurd hdigit (by decide)
  rw [List.cons_append] at hspan
  cases down <;> cases plus <;>
    simp [Written.exponentSign, spanNumber.eq_def (mark :: _), hother, hmark, hd, hspan]

/-- The text of a number is taken as a whole, whatever mark its exponent has. -/
theorem spanNumber_bodyWith {w : Written} (hw : w.Digital) {mark : Char} (plus : Bool)
    (hmark : mark = 'e' ∨ mark = 'E') {rest : List Char} (h : Delimited rest) :
    spanNumber (w.bodyWith mark plus ++ rest) = (w.bodyWith mark plus, rest) := by
  rw [Written.bodyWith, List.append_assoc, List.append_assoc]
  have hexp : ∀ tail, w.exponent.elim [] (fun e => mark :: (Written.exponentSign plus e.1 ++ e.2))
        = tail → spanNumber (tail ++ rest) = (tail, rest) := by
    rintro tail rfl
    cases he : w.exponent with
    | none => exact spanNumber_delimited h
    | some e => exact spanNumber_exponent plus e.1 hmark (hw.exponent e he).1 (hw.exponent e he).2 h
  generalize htail : w.exponent.elim [] _ = tail at hexp ⊢
  have hexp := hexp tail rfl
  have hfraction : spanNumber (w.fraction.elim [] ('.' :: ·) ++ (tail ++ rest))
      = (w.fraction.elim [] ('.' :: ·) ++ tail, rest) := by
    cases hf : w.fraction with
    | none => exact hexp
    | some f =>
      rw [Option.elim_some, List.cons_append, spanNumber_cons (.inr rfl),
        spanNumber_digits (hw.fraction f hf), hexp]
      rfl
  rw [spanNumber_digits hw.whole, hfraction]

theorem spanNumber_toDigits (n : Nat) {rest : List Char} (h : Delimited rest) :
    spanNumber (Nat.toDigits 10 n ++ rest) = (Nat.toDigits 10 n, rest) := by
  rw [spanNumber_digits (allDigits_toDigits n), spanNumber_delimited h, List.append_nil]

/-! ## Values -/

/-- Both ways to add up digits agree. -/
theorem digitsValue_eq (ds : List Char) : digitsValue ds = Json.Number.digitsValue ds := by
  unfold digitsValue Json.Number.digitsValue Nat.ofDigitChars
  congr 1
  funext n d
  rw [Nat.mul_comm]
  rfl

theorem isDigits_of_allDigits {ds : List Char} (h : AllDigits ds) (hne : ds ≠ []) :
    isDigits ds = true := by
  simp only [isDigits, Bool.and_eq_true, Bool.not_eq_true', List.isEmpty_eq_false_iff,
    List.all_eq_true]
  exact ⟨hne, h⟩

theorem exponent?_signed {ds : List Char} (plus down : Bool) (h : AllDigits ds) (hne : ds ≠ []) :
    exponent? (Written.exponentSign plus down ++ ds)
      = some (if down then -(Json.Number.digitsValue ds : Int)
        else Json.Number.digitsValue ds) := by
  have hdigits := isDigits_of_allDigits h hne
  cases down
  case true => simp [Written.exponentSign, exponent?, hdigits, digitsValue_eq]
  cases plus
  case true => simp [Written.exponentSign, exponent?, hdigits, digitsValue_eq]
  rw [Written.exponentSign, if_neg Bool.false_ne_true, if_neg Bool.false_ne_true, List.nil_append,
    exponent?.eq_def]
  split
  -- digits start with no sign
  · exact absurd (h '-' (by simp)) (by decide)
  · exact absurd (h '+' (by simp)) (by decide)
  · simp [hdigits, digitsValue_eq]

theorem digit_not_mark {c : Char} (h : c.isDigit = true) : c ≠ '.' ∧ c ≠ 'e' ∧ c ≠ 'E' := by
  refine ⟨?_, ?_, ?_⟩ <;>
    · rintro rfl
      exact absurd h (by decide)

theorem span_append {p : Char → Bool} {as bs : List Char} (ha : ∀ c ∈ as, p c = true)
    (hb : ∀ c ∈ bs.head?, p c = false) : (as ++ bs).span p = (as, bs) := by
  rw [List.span_eq_takeWhile_dropWhile, List.takeWhile_append_of_pos ha,
    List.dropWhile_append_of_pos ha]
  cases bs with
  | nil => simp
  | cons b bs => simp [hb b rfl]

/-- The digits of a number mean its decimal, whatever mark its exponent has. -/
theorem decimal?_bodyWith {w : Written} (hw : w.Digital) {mark : Char} (plus : Bool)
    (hmark : mark = 'e' ∨ mark = 'E') : decimal? (w.bodyWith mark plus) = some w.decimal := by
  -- nothing before the exponent is an exponent mark, and no digit of the whole part is a point
  have hmantissa : ∀ c ∈ w.whole ++ w.fraction.elim [] ('.' :: ·),
      (c ≠ 'e' && c ≠ 'E') = true := by
    intro c hc
    rcases List.mem_append.mp hc with hc | hc
    · simp [digit_not_mark (hw.whole c hc)]
    · cases hf : w.fraction with
      | none => simp [hf] at hc
      | some f =>
        rw [hf, Option.elim_some] at hc
        rcases List.mem_cons.mp hc with rfl | hc
        · rfl
        · simp [digit_not_mark (hw.fraction f hf c hc)]
  have htail : ∀ c ∈ (w.exponent.elim []
        fun e => mark :: (Written.exponentSign plus e.1 ++ e.2)).head?,
      (c ≠ 'e' && c ≠ 'E') = false := by
    intro c hc
    cases he : w.exponent with
    | none => simp [he] at hc
    | some e =>
      simp only [he, Option.elim_some, List.head?_cons, Option.mem_def, Option.some.injEq] at hc
      subst hc
      rcases hmark with rfl | rfl <;> rfl
  have hsplit : (w.whole ++ w.fraction.elim [] ('.' :: ·)).span (fun c => c ≠ '.')
      = (w.whole, w.fraction.elim [] ('.' :: ·)) := by
    apply span_append
    · intro c hc
      simp [digit_not_mark (hw.whole c hc)]
    · intro c hc
      cases hf : w.fraction with
      | none => simp [hf] at hc
      | some f =>
        simp only [hf, Option.elim_some, List.head?_cons, Option.mem_def, Option.some.injEq] at hc
        simp [← hc]
  have hfraction : (w.fraction.elim [] ('.' :: ·)).drop 1 = w.fraction.getD [] := by
    cases w.fraction <;> rfl
  have hdigits : isDigits (w.whole ++ w.fraction.getD []) = true := by
    apply isDigits_of_allDigits
    · apply hw.whole.append
      cases hf : w.fraction with
      | none => intro c hc; cases hc
      | some f => exact hw.fraction f hf
    · simp [hw.whole_ne]
  rw [Written.bodyWith, ← List.append_assoc, decimal?, span_append hmantissa htail]
  simp only [hsplit, hfraction, hdigits, if_true, digitsValue_eq]
  cases he : w.exponent with
  | none => simp [Written.decimal, Written.stated, he]
  | some e =>
    obtain ⟨hds, hne⟩ := hw.exponent e he
    simp [exponent?_signed plus e.1 hds hne, Written.decimal, Written.stated, he]

/-- The digits of a whole number read back as the number. -/
theorem number?_integer {n : Nat} (h : n < 9223372036854775808) :
    number? (Nat.toDigits 10 n) = some (.integer (WordInt.ofInt n)) := by
  have hdigits := isDigits_of_allDigits (allDigits_toDigits n) Nat.toDigits_ne_nil
  simp [number?, hdigits, digitsValue_eq, h]

/-- The text of a number with a point or an exponent is not a sequence of digits. -/
theorem isDigits_bodyWith {w : Written} {mark : Char} (plus : Bool)
    (hmark : mark = 'e' ∨ mark = 'E') (h : w.fraction.isSome = true ∨ w.exponent.isSome = true) :
    isDigits (w.bodyWith mark plus) = false := by
  have hother : ∃ c ∈ w.bodyWith mark plus, c.isDigit = false := by
    rcases h with h | h
    · obtain ⟨f, hf⟩ := Option.isSome_iff_exists.mp h
      exact ⟨'.', by simp [Written.bodyWith, hf], rfl⟩
    · obtain ⟨e, he⟩ := Option.isSome_iff_exists.mp h
      exact ⟨mark, by simp [Written.bodyWith, he], by rcases hmark with rfl | rfl <;> rfl⟩
  obtain ⟨c, hc, hdigit⟩ := hother
  simp only [isDigits, Bool.and_eq_false_iff, List.all_eq_false]
  exact .inr ⟨c, hc, by simp [hdigit]⟩

/-- The text of a double without its sign reads back as the double without its sign. -/
theorem number?_double (x : Binary64) :
    number? (writtenDouble x).body = some (.float { x with negative := false }) := by
  have hdecimal : decimal? (writtenDouble x).body = some (writtenDouble x).decimal := by
    rw [Written.body_eq_bodyWith]
    exact decimal?_bodyWith (digital_writtenDouble x) true (.inl rfl)
  have hdigits : isDigits (writtenDouble x).body = false := by
    rw [Written.body_eq_bodyWith]
    exact isDigits_bodyWith true (.inl rfl) (writtenDouble_marked x)
  simp [number?, hdigits, hdecimal,
    Binary64.ofDecimal?_of_value false x (value_writtenDouble x)]

end HttpContract.Script
