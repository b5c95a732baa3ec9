import HttpContract.Json.Number
import HttpContract.Proofs.Binary64.Shortest

/-!
# Binary64 — the written form of a double

The text of a number is a sign and the digits of a written form: those before the point, those
behind it, and an exponent. `Number.written` is that form and `Written.decimal` the decimal that its
digits mean; for a double it has the value of the shortest decimal (`value_written`), however the
digits are laid out.
-/

namespace HttpContract.Json.Number

open Binary64 (Decimal digitCount)

/-! ## Digits -/

/-- Whether all characters are decimal digits. -/
def AllDigits (cs : List Char) : Prop := ∀ c ∈ cs, c.isDigit = true

theorem AllDigits.append {as bs : List Char} (ha : AllDigits as) (hb : AllDigits bs) :
    AllDigits (as ++ bs) := fun c hc => (List.mem_append.mp hc).elim (ha c) (hb c)

theorem allDigits_toDigits (n : Nat) : AllDigits (Nat.toDigits 10 n) := fun _ hc =>
  Nat.isDigit_of_mem_toDigits (by decide) (by decide) hc

theorem allDigits_zeros (n : Nat) : AllDigits (List.replicate n '0') := by
  intro c hc
  rw [List.eq_of_mem_replicate hc]
  rfl

/-- The value of decimal digits. -/
def digitsValue (ds : List Char) : Nat := Nat.ofDigitChars 10 ds 0

@[simp] theorem digitsValue_toDigits (n : Nat) : digitsValue (Nat.toDigits 10 n) = n :=
  Nat.ofDigitChars_ten_toDigits

/-- Zeros at the end scale a value. -/
theorem digitsValue_append_zeros (ds : List Char) (n : Nat) :
    digitsValue (ds ++ List.replicate n '0') = digitsValue ds * 10 ^ n := by
  rw [digitsValue, Nat.ofDigitChars_append, Nat.ofDigitChars_replicate_zero, Nat.mul_comm]
  rfl

/-- Zeros in front do not count. -/
theorem digitsValue_zeros_append (ds : List Char) (n : Nat) :
    digitsValue (List.replicate n '0' ++ ds) = digitsValue ds := by
  rw [digitsValue, Nat.ofDigitChars_append, Nat.ofDigitChars_replicate_zero]
  rfl

/-! ## Written forms -/

namespace Written

/-- The characters of an exponent. -/
def exponentChars (down : Bool) (digits : List Char) : List Char :=
  'e' :: (if down then '-' else '+') :: digits

/-- The characters of a written form behind its sign. -/
def body (w : Written) : List Char :=
  w.whole ++ (w.fraction.elim [] ('.' :: ·) ++ w.exponent.elim [] fun e => exponentChars e.1 e.2)

/-- The sign of an exponent; one that counts upwards may go without. -/
def exponentSign (plus down : Bool) : List Char :=
  if down then ['-'] else if plus then ['+'] else []

/-- The characters of a written form behind its sign, with any mark of an exponent. -/
def bodyWith (mark : Char) (plus : Bool) (w : Written) : List Char :=
  w.whole ++ (w.fraction.elim [] ('.' :: ·)
    ++ w.exponent.elim [] fun e => mark :: (exponentSign plus e.1 ++ e.2))

theorem body_eq_bodyWith (w : Written) : w.body = w.bodyWith 'e' true := by
  have hsign : ∀ e : Bool × List Char,
      exponentChars e.1 e.2 = 'e' :: (exponentSign true e.1 ++ e.2) := by
    rintro ⟨down, ds⟩
    cases down <;> rfl
  simp only [body, bodyWith, hsign]

/-- The exponent that a written form states. -/
def stated (w : Written) : Int :=
  w.exponent.elim 0 fun e => if e.1 then -(digitsValue e.2 : Int) else digitsValue e.2

/-- The decimal that the digits mean, sign aside. -/
def decimal (w : Written) : Decimal :=
  ⟨digitsValue (w.whole ++ w.fraction.getD []), w.stated - (w.fraction.getD []).length⟩

/-- Digits stand where digits belong, and there are some before the point and in the exponent. -/
structure Digital (w : Written) : Prop where
  whole : AllDigits w.whole
  whole_ne : w.whole ≠ []
  fraction : ∀ f, w.fraction = some f → AllDigits f
  exponent : ∀ e, w.exponent = some e → AllDigits e.2 ∧ e.2 ≠ []

end Written

/-! ## Layouts of a decimal -/

/-- One digit before the point and an exponent. -/
def scientificForm (negative : Bool) (d : Decimal) : Written :=
  let ds := Nat.toDigits 10 d.digits
  let place := d.exponent + ds.length - 1
  ⟨negative, ds.take 1, if ds.length ≤ 1 then none else some (ds.drop 1),
    some (decide (place < 0), Nat.toDigits 10 place.natAbs)⟩

/-- A whole number with a point and a zero behind it. -/
def wholeForm (negative : Bool) (d : Decimal) : Written :=
  ⟨negative, Nat.toDigits 10 d.digits ++ List.replicate d.exponent.toNat '0', some ['0'], none⟩

/-- Digits on both sides of a point. -/
def pointForm (negative : Bool) (d : Decimal) : Written :=
  let ds := Nat.toDigits 10 d.digits
  let fraction := (-d.exponent).toNat
  let padded := List.replicate (fraction + 1 - ds.length) '0' ++ ds
  ⟨negative, padded.take (padded.length - fraction), some (padded.drop (padded.length - fraction)),
    none⟩

theorem digital_scientificForm (negative : Bool) (d : Decimal) :
    (scientificForm negative d).Digital where
  whole := fun c hc => allDigits_toDigits d.digits c (List.mem_of_mem_take hc)
  whole_ne := by simp [scientificForm]
  fraction := by
    intro f hf
    simp only [scientificForm, Option.ite_none_left_eq_some] at hf
    obtain ⟨-, hf⟩ := hf
    cases hf
    exact fun c hc => allDigits_toDigits d.digits c (List.mem_of_mem_drop hc)
  exponent := by
    intro e he
    cases he
    exact ⟨allDigits_toDigits _, Nat.toDigits_ne_nil⟩

theorem digital_wholeForm (negative : Bool) (d : Decimal) : (wholeForm negative d).Digital where
  whole := (allDigits_toDigits _).append (allDigits_zeros _)
  whole_ne := by simp [wholeForm]
  fraction := by
    intro f hf
    cases hf
    exact allDigits_zeros 1
  exponent := by
    intro e he
    cases he

theorem digital_pointForm (negative : Bool) (d : Decimal) : (pointForm negative d).Digital := by
  have hall : AllDigits (List.replicate ((-d.exponent).toNat + 1
      - (Nat.toDigits 10 d.digits).length) '0' ++ Nat.toDigits 10 d.digits) :=
    (allDigits_zeros _).append (allDigits_toDigits _)
  refine ⟨fun c hc => hall c (List.mem_of_mem_take hc), ?_, ?_, ?_⟩
  · intro h
    have hlen := congrArg List.length h
    simp only [pointForm, List.length_take, List.length_append, List.length_replicate,
      List.length_nil] at hlen
    omega
  · intro f hf
    cases hf
    exact fun c hc => hall c (List.mem_of_mem_drop hc)
  · intro e he
    cases he

theorem decimal_scientificForm (negative : Bool) (d : Decimal) :
    (scientificForm negative d).decimal = d := by
  have hpos : 0 < (Nat.toDigits 10 d.digits).length := Nat.length_toDigits_pos
  have hdigits : (scientificForm negative d).whole ++ (scientificForm negative d).fraction.getD []
      = Nat.toDigits 10 d.digits := by
    simp only [scientificForm]
    split
    · rename_i h
      rw [Option.getD_none, List.append_nil, List.take_of_length_le h]
    · rw [Option.getD_some, List.take_append_drop]
  have hlen : ((scientificForm negative d).fraction.getD []).length
      = (Nat.toDigits 10 d.digits).length - 1 := by
    simp only [scientificForm]
    split
    · rw [Option.getD_none, List.length_nil]
      omega
    · rw [Option.getD_some, List.length_drop]
  -- the exponent that is stated is that of the first digit, the decimal has that of the last
  have hstated : (scientificForm negative d).stated
      = d.exponent + (Nat.toDigits 10 d.digits).length - 1 := by
    simp only [scientificForm, Written.stated, Option.elim_some, digitsValue_toDigits,
      decide_eq_true_eq]
    split <;> omega
  unfold Written.decimal
  rw [hdigits, hlen, hstated, digitsValue_toDigits]
  congr 1
  omega

theorem value_wholeForm (negative : Bool) {d : Decimal} (h : 0 ≤ d.exponent) :
    (wholeForm negative d).decimal.value = d.value := by
  have hdec : (wholeForm negative d).decimal
      = ⟨d.digits * 10 ^ (d.exponent.toNat + 1), -1⟩ := by
    simp only [wholeForm, Written.decimal, Written.stated, Option.elim_none, Option.getD_some,
      List.length_singleton]
    rw [List.append_assoc, show ['0'] = List.replicate 1 '0' from rfl, ← List.replicate_add,
      digitsValue_append_zeros, digitsValue_toDigits]
    rfl
  rw [hdec, Decimal.value_mul_pow]
  congr 2
  omega

theorem decimal_pointForm (negative : Bool) {d : Decimal} (h : d.exponent < 0) :
    (pointForm negative d).decimal = d := by
  have hdigits : (pointForm negative d).whole ++ (pointForm negative d).fraction.getD []
      = List.replicate ((-d.exponent).toNat + 1 - (Nat.toDigits 10 d.digits).length) '0'
        ++ Nat.toDigits 10 d.digits := List.take_append_drop _ _
  have hlen : ((pointForm negative d).fraction.getD []).length = (-d.exponent).toNat := by
    simp only [pointForm, Option.getD_some, List.length_drop, List.length_append,
      List.length_replicate]
    omega
  unfold Written.decimal
  rw [hdigits, hlen, digitsValue_zeros_append, digitsValue_toDigits]
  simp only [pointForm, Written.stated, Option.elim_none]
  congr 1
  omega

/-! ## The form of a number -/

/-- The written form of a double. -/
def writtenDouble (x : Binary64) : Written :=
  let d := x.shortest
  let place := d.exponent + digitCount d.digits - 1
  if d.digits = 0 then ⟨x.negative, ['0'], some ['0'], none⟩
  else if place < -5 ∨ 15 < place then scientificForm x.negative d
  else if 0 ≤ d.exponent then wholeForm x.negative d
  else pointForm x.negative d

/-- The characters of a sign. -/
def signChars (negative : Bool) : List Char := if negative then ['-'] else []

theorem toList_signText (negative : Bool) :
    (Binary64.signText negative).toList = signChars negative := by
  cases negative <;> rfl

theorem toList_jsonText (x : Binary64) :
    x.jsonText.toList = signChars x.negative ++ (writtenDouble x).body := by
  unfold Binary64.jsonText writtenDouble
  simp only [String.toList_append, toList_signText]
  congr 1
  split
  · rfl
  split
  · simp only [Decimal.scientific, scientificForm, Written.body, Written.exponentChars]
    split <;> split <;>
      simp_all [String.toList_append, Option.elim]
  split
  · rename_i h
    simp [Decimal.positional, wholeForm, Written.body, h]
  · rename_i h
    simp [Decimal.positional, pointForm, Written.body, h]

theorem digital_writtenDouble (x : Binary64) : (writtenDouble x).Digital := by
  unfold writtenDouble
  simp only
  split
  · refine ⟨allDigits_zeros 1, by simp, ?_, ?_⟩
    · intro f hf
      cases hf
      exact allDigits_zeros 1
    · intro e he
      cases he
  split
  · exact digital_scientificForm _ _
  split
  · exact digital_wholeForm _ _
  · exact digital_pointForm _ _

/-- A double is never written like a whole number. -/
theorem writtenDouble_marked (x : Binary64) :
    (writtenDouble x).fraction.isSome ∨ (writtenDouble x).exponent.isSome := by
  unfold writtenDouble
  simp only
  split
  · exact .inl rfl
  split
  · exact .inr rfl
  split
  · exact .inl rfl
  · exact .inl rfl

/-- The written digits have the value of the shortest decimal. -/
theorem value_writtenDouble (x : Binary64) :
    (writtenDouble x).decimal.value = x.shortest.value := by
  unfold writtenDouble
  simp only
  split
  · rename_i h
    simp [Written.decimal, digitsValue, Nat.ofDigitChars, Decimal.value, h]
  split
  · rw [decimal_scientificForm]
  split
  · rename_i h
    exact value_wholeForm _ h
  · rename_i h
    rw [decimal_pointForm _ (by omega)]

end HttpContract.Json.Number
