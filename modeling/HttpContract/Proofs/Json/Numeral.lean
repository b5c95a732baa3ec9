import HttpContract.Json.Parser
import HttpContract.Proofs.Script.Literal

/-!
# Json — reading the text of a number

The text of a number is a sign and a written form that JSON has, and it is read as that form up to
what stands behind it (`parseNumber_text`). Reading the form need not give the number itself: a
double may be missed by one place, since reading scales its digits by powers of ten.
-/

namespace HttpContract.Json

open Binary64 (Decimal)
open Number (AllDigits Written allDigits_toDigits allDigits_zeros digital_writtenDouble signChars
  toList_jsonText writtenDouble)
open Script (Delimited delimiter_not_numeric span_append)

/-! ## Taking the characters -/

/-- What stands behind a number is not part of it. -/
theorem not_numeric_of_delimited {rest : List Char} (h : Delimited rest) :
    ∀ c ∈ rest.head?, c.isDigit = false ∧ c ≠ '.' ∧ c ≠ 'e' ∧ c ≠ 'E' := by
  intro c hc
  have hc := delimiter_not_numeric (h c hc)
  simp only [not_or, Bool.not_eq_true] at hc
  exact ⟨hc.1.1, hc.1.2, hc.2.1, hc.2.2⟩

theorem takeDigitChars_append {ds rest : List Char} (hds : AllDigits ds)
    (hrest : ∀ c ∈ rest.head?, c.isDigit = false) : takeDigitChars (ds ++ rest) = (ds, rest) :=
  span_append hds hrest

/-- The digits of a number that is not zero start with none. -/
theorem head?_toDigits {n : Nat} (h : n ≠ 0) : (Nat.toDigits 10 n).head? ≠ some '0' := by
  induction n using Nat.strongRecOn with
  | ind n ih =>
    by_cases hn : n < 10
    · rw [Nat.toDigits_of_lt_base hn]
      have hdigit : ∀ d < 10, d ≠ 0 → [Nat.digitChar d].head? ≠ some '0' := by decide
      exact hdigit n hn h
    · rw [Nat.toDigits_of_base_le (by decide) (by omega), List.head?_append]
      have hhead := ih (n / 10) (by omega) (by omega)
      cases hds : (Nat.toDigits 10 (n / 10)).head? with
      | none => exact absurd (List.head?_eq_none_iff.mp hds) Nat.toDigits_ne_nil
      | some c =>
        rw [hds] at hhead
        simpa using hhead

/-- A written form that JSON has: the digits before the point start with a zero only if it is the
only one, and there are some behind the point. -/
structure Plain (w : Written) : Prop where
  digital : w.Digital
  whole : w.whole.head? = some '0' → w.whole.length ≤ 1
  fraction : ∀ f, w.fraction = some f → f ≠ []

theorem plain_toDigits (negative : Bool) (n : Nat) :
    Plain ⟨negative, Nat.toDigits 10 n, none, none⟩ where
  digital := ⟨allDigits_toDigits n, Nat.toDigits_ne_nil, by simp, by simp⟩
  whole hzero := by
    by_cases hn : n = 0
    · rw [hn]
      exact (by decide : (Nat.toDigits 10 0).length ≤ 1)
    · exact absurd hzero (head?_toDigits hn)
  fraction := by simp

theorem plain_scientificForm (negative : Bool) (d : Decimal) :
    Plain (Number.scientificForm negative d) where
  digital := Number.digital_scientificForm negative d
  whole _ := by simp [Number.scientificForm]
  fraction f hf := by
    simp only [Number.scientificForm, Option.ite_none_left_eq_some, not_le] at hf
    obtain ⟨hlength, hf⟩ := hf
    rw [← Option.some.inj hf, ne_eq, List.drop_eq_nil_iff]
    omega

theorem plain_wholeForm (negative : Bool) {d : Decimal} (h : d.digits ≠ 0) :
    Plain (Number.wholeForm negative d) where
  digital := Number.digital_wholeForm negative d
  whole hzero := by
    rw [Number.wholeForm, List.head?_append_of_ne_nil _ Nat.toDigits_ne_nil] at hzero
    exact absurd hzero (head?_toDigits h)
  fraction f hf := by
    cases hf
    simp

theorem plain_pointForm (negative : Bool) {d : Decimal} (h : d.digits ≠ 0)
    (hexponent : d.exponent < 0) : Plain (Number.pointForm negative d) where
  digital := Number.digital_pointForm negative d
  whole hzero := by
    simp only [Number.pointForm] at hzero ⊢
    by_cases hshort : (Nat.toDigits 10 d.digits).length ≤ (-d.exponent).toNat
    -- zeros are put in front up to the first place before the point
    · simp only [List.length_take, List.length_append, List.length_replicate]
      omega
    · have hpadding : (-d.exponent).toNat + 1 - (Nat.toDigits 10 d.digits).length = 0 := by omega
      rw [hpadding, List.replicate_zero, List.nil_append, List.head?_take, if_neg (by omega)]
        at hzero
      exact absurd hzero (head?_toDigits h)
  fraction f hf := by
    simp only [Number.pointForm, Option.some.injEq] at hf
    rw [← hf, ne_eq, List.drop_eq_nil_iff]
    simp only [List.length_append, List.length_replicate]
    omega

theorem plain_writtenDouble (x : Binary64) : Plain (writtenDouble x) := by
  unfold writtenDouble
  simp only
  split
  · refine ⟨⟨allDigits_zeros 1, by simp, ?_, by simp⟩, by simp, by simp⟩
    intro f hf
    cases hf
    exact allDigits_zeros 1
  rename_i hdigits
  split
  · exact plain_scientificForm _ _
  split
  · exact plain_wholeForm _ hdigits
  · exact plain_pointForm _ hdigits (by omega)

theorem parseExponent_written {w : Written} (hw : w.Digital) {rest : List Char}
    (hrest : Delimited rest) :
    parseExponent (w.exponent.elim [] (fun e => Written.exponentChars e.1 e.2) ++ rest)
      = some (w.exponent, rest) := by
  cases he : w.exponent with
  | none =>
    cases rest with
    | nil => rfl
    | cons c rest =>
      obtain ⟨-, -, hsmall, hcapital⟩ := not_numeric_of_delimited hrest c rfl
      simp [parseExponent, hsmall, hcapital]
  | some e =>
    obtain ⟨down, ds⟩ := e
    obtain ⟨hds, hne⟩ := hw.exponent _ he
    have htake := takeDigitChars_append hds
      (fun c hc => (not_numeric_of_delimited hrest c hc).1)
    cases down <;> simp [parseExponent, Written.exponentChars, htake, hne]

/-- What stands behind the point or the exponent mark of a number, or behind it. -/
theorem head?_exponent {w : Written} {rest : List Char} (hrest : Delimited rest) :
    ∀ c ∈ (w.exponent.elim [] (fun e => Written.exponentChars e.1 e.2) ++ rest).head?,
      c.isDigit = false ∧ c ≠ '.' := by
  cases w.exponent with
  | none =>
    intro c hc
    exact (not_numeric_of_delimited hrest c hc).imp_right (·.1)
  | some e =>
    intro c hc
    cases hc
    decide

/-- A written form is read up to what stands behind it. -/
theorem parseWritten_body {w : Written} (h : Plain w) {rest : List Char} (hrest : Delimited rest) :
    parseWritten (signChars w.negative ++ (w.body ++ rest)) = some (w, rest) := by
  have hexponent := parseExponent_written h.digital hrest
  have hend := head?_exponent (w := w) hrest
  rw [Written.body, List.append_assoc, List.append_assoc]
  generalize w.exponent.elim [] (fun e => Written.exponentChars e.1 e.2) ++ rest = behind at *
  obtain ⟨negative, whole, fraction, exponent⟩ := w
  obtain ⟨hdigital, hwhole, hfraction⟩ := h
  obtain ⟨d, ds, rfl⟩ := List.exists_cons_of_ne_nil hdigital.whole_ne
  have hd : d ≠ '-' := by
    rintro rfl
    exact absurd (hdigital.whole '-' (by simp)) (by decide)
  have hpoint : ∀ c ∈ (fraction.elim [] ('.' :: ·) ++ behind).head?, c.isDigit = false := by
    cases fraction with
    | none => exact fun c hc => (hend c hc).1
    | some f =>
      intro c hc
      cases hc
      decide
  have htakeWhole := takeDigitChars_append hdigital.whole hpoint
  have hguard : ((d :: ds).isEmpty || ((d :: ds).length > 1 && (d :: ds).head? == some '0'))
      = false := by
    rw [Bool.or_eq_false_iff, Bool.and_eq_false_iff]
    refine ⟨rfl, ?_⟩
    by_cases hzero : (d :: ds).head? = some '0'
    · exact .inl (by simpa using hwhole hzero)
    · exact .inr (by simpa using hzero)
  unfold parseWritten
  split
  rename_i sign start hsign
  obtain ⟨rfl, rfl⟩ : sign = negative
      ∧ start = d :: ds ++ (fraction.elim [] ('.' :: ·) ++ behind) := by
    cases negative with
    | true =>
      cases hsign
      exact ⟨rfl, rfl⟩
    | false =>
      rw [signChars, if_neg Bool.false_ne_true, List.nil_append] at hsign
      split at hsign
      · rename_i heq
        exact absurd (List.cons.inj heq).1 hd
      · cases hsign
        exact ⟨rfl, rfl⟩
  simp only [htakeWhole, hguard]
  rw [if_neg (by decide)]
  cases fraction with
  | none =>
    rw [Option.elim_none, List.nil_append]
    split
    · exact absurd rfl (hend '.' rfl).2
    · rw [Option.bind_eq_bind, Option.bind_some, hexponent]
      rfl
  | some f =>
    have htake := takeDigitChars_append (hdigital.fraction f rfl) fun c hc => (hend c hc).1
    have hne : f.isEmpty = false := by simpa using hfraction f rfl
    simp [htake, hne, hexponent]

/-! ## The form of a number -/

/-- The written form of a number. -/
def writtenNumber : Number → Written
  | .integer n => ⟨decide (n.val < 0), Nat.toDigits 10 n.val.natAbs, none, none⟩
  | .float x => writtenDouble x

theorem plain_writtenNumber (n : Number) : Plain (writtenNumber n) := by
  cases n with
  | integer n => exact plain_toDigits _ _
  | float x => exact plain_writtenDouble x

theorem negative_writtenDouble (x : Binary64) : (writtenDouble x).negative = x.negative := by
  unfold writtenDouble
  simp only
  split
  · rfl
  split
  · rfl
  split <;> rfl

theorem toList_text (n : Number) :
    n.text.toList = signChars (writtenNumber n).negative ++ (writtenNumber n).body := by
  cases n with
  | integer n =>
    simp only [Number.text, writtenNumber, Written.body, Option.elim_none, List.append_nil]
    cases n.val with
    | ofNat k =>
      rw [decide_eq_false (by simp : ¬Int.ofNat k < 0)]
      exact toList_toString_nat k
    | negSucc k =>
      rw [decide_eq_true (Int.negSucc_lt_zero k)]
      show ("-" ++ toString (k + 1)).toList = _
      rw [String.toList_append, toList_toString_nat]
      rfl
  | float x => rw [Number.text, toList_jsonText, writtenNumber, negative_writtenDouble]

/-- A number is read up to what stands behind it. -/
theorem parseNumber_text (n : Number) {rest : List Char} (hrest : Delimited rest) :
    parseNumber (n.text.toList ++ rest)
      = (writtenNumber n).value?.map fun m => (.number m, rest) := by
  rw [toList_text, List.append_assoc, parseNumber, parseWritten_body (plain_writtenNumber n) hrest,
    Option.map_eq_bind]
  rfl

/-- The text of a number starts with a sign or a digit. -/
theorem exists_text (n : Number) :
    ∃ c cs, n.text.toList = c :: cs ∧ (c = '-' ∨ c.isDigit = true) := by
  have hdigital := (plain_writtenNumber n).digital
  obtain ⟨d, ds, hwhole⟩ := List.exists_cons_of_ne_nil hdigital.whole_ne
  rw [toList_text]
  cases (writtenNumber n).negative with
  | true => exact ⟨_, _, rfl, .inl rfl⟩
  | false =>
    rw [Written.body, hwhole]
    exact ⟨d, _, rfl, .inr (hdigital.whole d (by simp [hwhole]))⟩

end HttpContract.Json
