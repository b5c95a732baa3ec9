import HttpContract.Calendar.Read
import HttpContract.Calendar.Render
import HttpContract.Proofs.Binary64.Written
import HttpContract.Proofs.Calendar.Told

/-!
# Calendar.Numerals — the numbers and names of an instant as texts

Every number of an instant is written in the same way, as digits brought to some places
(`Instant.Plain.numberText_eq`): blanks and digits behind them, and exactly so many digits if the
padding is with zeros. The first digits of a fraction tell the nanoseconds up to a cut
(`Instant.cut`), and the names of months and weekdays are told apart by their first three letters
(`Names.read?_form`).
-/

namespace HttpContract.Calendar

open Json.Number (AllDigits digitsValue)

/-! ## Digits -/

namespace Read

theorem valueOf_eq_digitsValue (digits : List Char) : valueOf digits = digitsValue digits := by
  rw [valueOf, digitsValue, Nat.ofDigitChars]
  congr 1
  funext n d
  rw [Nat.mul_comm]
  rfl

/-- No digit stands at the start of a text. -/
def NoDigit (cs : List Char) : Prop := ∀ c ∈ cs.head?, c.isDigit = false

theorem takeWhile_noDigit {cs : List Char} (h : NoDigit cs) (limit : Nat) :
    (cs.take limit).takeWhile Char.isDigit = [] := by
  cases cs with
  | nil => simp
  | cons c rest =>
    cases limit with
    | zero => rfl
    | succ limit => rw [List.take_succ_cons, List.takeWhile_cons_of_neg (by simp [h c rfl])]

/-- Digits are taken as far as they go, or as far as is allowed. -/
theorem takeDigits_append {limit : Nat} {digits behind : List Char} (hdigits : AllDigits digits)
    (hle : digits.length ≤ limit) (h : digits.length = limit ∨ NoDigit behind) :
    takeDigits limit (digits ++ behind) = (digits, behind) := by
  have htake : ((digits ++ behind).take limit).takeWhile Char.isDigit = digits := by
    rw [List.take_append, List.take_of_length_le hle, List.takeWhile_append_of_pos hdigits]
    rcases h with h | h
    · simp [h]
    · rw [takeWhile_noDigit h, List.append_nil]
  rw [takeDigits, htake, List.drop_left]

theorem number?_append {limit : Nat} {digits behind : List Char} (hdigits : AllDigits digits)
    (hne : digits ≠ []) (hle : digits.length ≤ limit)
    (h : digits.length = limit ∨ NoDigit behind) :
    number? limit (digits ++ behind) = some (digitsValue digits, behind) := by
  rw [number?, takeDigits_append hdigits hle h, ← valueOf_eq_digitsValue]
  cases digits with
  | nil => exact absurd rfl hne
  | cons d ds => rfl

theorem fixed?_append {digits behind : List Char} (hdigits : AllDigits digits) :
    fixed? digits.length (digits ++ behind) = some (digitsValue digits, behind) := by
  rw [fixed?, takeDigits_append hdigits (Nat.le_refl _) (.inl rfl), ← valueOf_eq_digitsValue]
  exact if_pos rfl

end Read

/-! ## The text of a number -/

/-- The number of an instant that a field of a format shows. -/
def Instant.number (t : Instant) : NumberField → Nat
  | .year => t.day.year.toNat
  | .century => (t.day.year / 100 % 256).toNat
  | .yearOfCentury => (t.day.year % 100).toNat
  | .weekYear => t.day.weekYear.toNat
  | .weekYearOfCentury => (t.day.weekYear % 100).toNat
  | .quarter => t.day.quarter.toNat
  | .month => t.day.month.toNat
  | .day => t.day.dayOfMonth.toNat
  | .weekFromSunday => (t.day.weekFrom 6).toNat
  | .weekFromMonday => (t.day.weekFrom 0).toNat
  | .week => t.day.week.toNat
  | .weekdayFromSunday => (t.day.daysSince 6).toNat
  | .weekdayFromMonday => (t.day.weekday + 1).toNat
  | .dayOfYear => t.day.dayOfYear.toNat
  | .hour => t.hour
  | .clockHour => t.clockHour
  | .minute => t.minute
  | .second => t.second
  | .nanosecond => t.subsecond
  | .timestamp => t.seconds.toNat

/-- The places that a number is brought to. -/
def NumberField.places : NumberField → Nat
  | .year | .weekYear => 4
  | .dayOfYear => 3
  | .quarter | .weekdayFromSunday | .weekdayFromMonday => 1
  | .nanosecond | .timestamp => 9
  | _ => 2

theorem NumberField.places_pos (field : NumberField) : 0 < field.places := by
  cases field <;> decide

/-- The numbers that a date and a time of day are usually written with. -/
def NumberField.isUsual : NumberField → Bool
  | .year | .month | .day | .hour | .minute | .second => true
  | _ => false

theorem Instant.unsigned_of_isUsual (t : Instant) {field : NumberField}
    (h : field.isUsual = true) :
    t.Unsigned field.parts ∧ field ≠ .timestamp ∧ field ≠ .nanosecond := by
  have hnone : .weekYear ∉ field.parts ∧ .weekYearOfCentury ∉ field.parts
      ∧ .timestamp ∉ field.parts ∧ field ≠ .timestamp ∧ field ≠ .nanosecond := by
    revert h
    cases field <;> decide
  obtain ⟨hyear, hdigits, htimestamp, hne⟩ := hnone
  exact ⟨⟨fun h => absurd h (not_or.mpr ⟨hyear, hdigits⟩), fun h => absurd h htimestamp⟩, hne⟩

/-- Every number but a timestamp fits into its places. -/
theorem Instant.Plain.number_lt {t : Instant} (h : t.Plain) {field : NumberField}
    (hfield : field ≠ .timestamp) : t.number field < 10 ^ field.places := by
  have hyear := h.year
  have hweekYear := h.weekYear
  have hnano := h.nanoseconds
  have hmonth := t.day.month_bounds
  have hday := t.day.dayOfMonth_bounds
  have hsunday := t.day.weekFrom_bounds 6
  have hmonday := t.day.weekFrom_bounds 0
  have hweek := t.day.week_bounds
  have hweekday := t.day.weekday_bounds
  have hplace := t.day.dayOfYear_bounds
  cases field with
  | timestamp => exact absurd rfl hfield
  | clockHour =>
    simp only [number, NumberField.places, clockHour]
    split <;> omega
  | _ =>
    simp only [number, NumberField.places, Day.quarter, Day.daysSince, hour, minute, second,
      subsecond, secondOfDay, perDay, perSecond] at *
    omega

theorem twoPlaces_eq_padTo (padding : Padding) {n : Nat} (h : n < 100) :
    twoPlaces padding n = padTo 2 padding [] (digitsOf n) := by
  have hall : ∀ padding ∈ [Padding.none, .zeros, .spaces], ∀ n < 100,
      twoPlaces padding n = padTo 2 padding [] (digitsOf n) := by decide +kernel
  exact hall padding (by cases padding <;> decide) n h

theorem digitsOf_eq_padTo (padding : Padding) {n : Nat} (h : n < 10) :
    digitsOf n = padTo 1 padding [] (digitsOf n) := by
  have hall : ∀ padding ∈ [Padding.none, .zeros, .spaces], ∀ n < 10,
      digitsOf n = padTo 1 padding [] (digitsOf n) := by decide +kernel
  exact hall padding (by cases padding <;> decide) n h

/-- All numbers are brought to their places in the same way. -/
theorem Instant.Plain.numberText_eq {t : Instant} (h : t.Plain) (padding : Padding)
    {field : NumberField} (hfield : t.Unsigned field.parts) :
    t.numberText padding field = padTo field.places padding [] (digitsOf (t.number field)) := by
  have hlt (hne : field ≠ .timestamp) := h.number_lt hne
  have hyear : ∀ y : Int, 0 ≤ y ∧ y ≤ 9999 →
      yearText padding y = padTo 4 padding [] (digitsOf y.toNat) := fun y hy =>
    if_pos (by omega)
  cases field with
  | year => exact hyear _ h.year
  | weekYear => exact hyear _ ⟨hfield.weekYear (.inl List.mem_cons_self), h.weekYear.2⟩
  | timestamp =>
    have hpos := hfield.timestamp List.mem_cons_self
    have hsize : t.seconds.natAbs = t.seconds.toNat := by omega
    simp only [numberText, if_neg (Int.not_lt.mpr hpos), hsize]
    rfl
  | quarter => exact digitsOf_eq_padTo padding (hlt nofun)
  | weekdayFromSunday => exact digitsOf_eq_padTo padding (hlt nofun)
  | weekdayFromMonday => exact digitsOf_eq_padTo padding (hlt nofun)
  | dayOfYear => rfl
  | nanosecond => rfl
  | _ => exact twoPlaces_eq_padTo padding (hlt nofun)

/-- A number in some places is blanks and digits behind them. -/
theorem exists_padTo {width : Nat} (hwidth : 0 < width) (padding : Padding) (n : Nat) :
    ∃ blanks digits, padTo width padding [] (digitsOf n) = blanks ++ digits
      ∧ (∀ c ∈ blanks, c = ' ') ∧ AllDigits digits ∧ digits ≠ [] ∧ digitsValue digits = n
      ∧ (n < 10 ^ width → digits.length ≤ width
        ∧ (padding = .zeros ∨ width = 1 → blanks = [] ∧ digits.length = width)) := by
  have hlength := Nat.length_toDigits_le_iff (n := n) (b := 10) (by decide) hwidth
  have hpos : 0 < (Nat.toDigits 10 n).length := Nat.length_toDigits_pos
  have hne : Nat.toDigits 10 n ≠ [] := List.ne_nil_of_length_pos hpos
  have hdigits := Json.Number.allDigits_toDigits n
  have hone (hlt : n < 10 ^ width) (h : width = 1) : (Nat.toDigits 10 n).length = width := by
    have := hlength.mpr hlt
    omega
  cases padding with
  | none =>
    refine ⟨[], _, rfl, nofun, hdigits, hne, Json.Number.digitsValue_toDigits n,
      fun hlt => ⟨hlength.mpr hlt, fun h => ⟨rfl, hone hlt (h.resolve_left nofun)⟩⟩⟩
  | spaces =>
    refine ⟨_, _, List.append_assoc .., ?_, hdigits, hne, Json.Number.digitsValue_toDigits n,
      fun hlt => ⟨hlength.mpr hlt, fun h => ⟨?_, hone hlt (h.resolve_left nofun)⟩⟩⟩
    · simp
    · have := hone hlt (h.resolve_left nofun)
      simp [digitsOf, this]
  | zeros =>
    refine ⟨[], _, rfl, nofun, (Json.Number.allDigits_zeros _).append hdigits,
      by simp [digitsOf, hne], ?_, fun hlt => ?_⟩
    · exact (Json.Number.digitsValue_zeros_append ..).trans (Json.Number.digitsValue_toDigits n)
    · have := hlength.mpr hlt
      have hfull : (List.replicate (width - (0 + (Nat.toDigits 10 n).length)) '0'
          ++ Nat.toDigits 10 n).length = width := by
        simp only [List.length_append, List.length_replicate]
        omega
      exact ⟨Nat.le_of_eq hfull, fun _ => ⟨rfl, hfull⟩⟩

/-- A number has always as many digits as are read of it at most. -/
def NumberField.isFixed (field : NumberField) (padding : Padding) : Bool :=
  field ≠ .timestamp && (padding = .zeros || field.places = 1)

theorem Instant.Plain.exists_numberText {t : Instant} (h : t.Plain) (padding : Padding)
    {field : NumberField} (hfield : t.Unsigned field.parts) :
    ∃ blanks digits, t.numberText padding field = blanks ++ digits
      ∧ (∀ c ∈ blanks, c = ' ') ∧ AllDigits digits ∧ digits ≠ []
      ∧ digitsValue digits = t.number field
      ∧ (field ≠ .timestamp → digits.length ≤ field.places)
      ∧ (field.isFixed padding = true → blanks = [] ∧ digits.length = field.places) := by
  rw [h.numberText_eq padding hfield]
  obtain ⟨blanks, digits, heq, hblanks, hdigits, hne, hvalue, hwidth⟩ :=
    exists_padTo field.places_pos padding (t.number field)
  refine ⟨blanks, digits, heq, hblanks, hdigits, hne, hvalue,
    fun hother => (hwidth (h.number_lt hother)).1, fun hfixed => ?_⟩
  simp only [NumberField.isFixed, Bool.and_eq_true, Bool.or_eq_true, decide_eq_true_eq] at hfixed
  exact (hwidth (h.number_lt hfixed.1)).2 hfixed.2

/-! ## Names -/

namespace Names

theorem dropWord?_append (word rest : List Char) : dropWord? word (word ++ rest) = some rest := by
  rw [dropWord?, List.take_left, if_pos rfl, List.drop_left]

/-- The first three letters tell the names of a list apart. -/
def Distinct (names : List String) : Prop :=
  (∀ name ∈ names, 3 ≤ name.toList.length)
    ∧ names.Pairwise fun a b => (form false b).map lower ≠ (form false a).map lower

instance (names : List String) : Decidable (Distinct names) := inferInstanceAs (Decidable (_ ∧ _))

theorem distinct_months : Distinct months := by decide +kernel

theorem distinct_weekdays : Distinct weekdays := by decide +kernel

theorem form_eq (long : Bool) (name : String) :
    form long name = form false name ++ if long then name.toList.drop 3 else [] := by
  cases long
  · exact (List.append_nil _).symm
  · exact (List.take_append_drop 3 name.toList).symm

/-- A name is read back in its form, long or short. -/
theorem read?_form (long : Bool) {names : List String} (h : Distinct names) {i : Nat}
    {name : String} (hi : names[i]? = some name) (place : Nat) (behind : List Char) :
    read? long place names (form long name ++ behind) = some (place + i, behind) := by
  induction names generalizing i place with
  | nil => simp at hi
  | cons first rest ih =>
    obtain ⟨hlength, hdistinct⟩ := h
    rw [List.pairwise_cons] at hdistinct
    cases i with
    | zero =>
      obtain rfl : first = name := by simpa using hi
      rw [read?, form_eq long, List.append_assoc, dropWord?_append]
      cases long
      · rfl
      · simp [dropWord?_append]
    | succ i =>
      have hi' : rest[i]? = some name := hi
      have hname := List.mem_of_getElem? hi'
      have hother : dropWord? (form false first) (form long name ++ behind) = none := by
        have hshort {name : String} (hname : name ∈ first :: rest) :
            (form false name).length = 3 := by
          have := hlength name hname
          simp [form]
          omega
        have htake : (form long name ++ behind).take 3 = form false name := by
          rw [form_eq long, List.append_assoc]
          exact List.take_left' (hshort (List.mem_cons_of_mem _ hname))
        rw [dropWord?, hshort List.mem_cons_self, htake]
        exact if_neg (hdistinct.1 name hname)
      rw [read?, hother]
      simp only
      rw [ih ⟨fun n hn => hlength n (List.mem_cons_of_mem _ hn), hdistinct.2⟩ hi']
      simp only [Option.some.injEq, Prod.mk.injEq, and_true]
      omega

end Names

/-! ## Fractions -/

/-- The nanoseconds of an instant that the first digits of its fraction tell. -/
def Instant.cut (t : Instant) (digits : Nat) : Nat :=
  t.subsecond / Nat.pow 10 (9 - digits) * Nat.pow 10 (9 - digits)

theorem Instant.cut_nine (t : Instant) : t.cut 9 = t.subsecond := by
  simp [cut]

theorem Instant.subsecond_lt (t : Instant) : t.subsecond < perSecond := Nat.mod_lt _ (by decide)

theorem Instant.cut_lt (t : Instant) (digits : Nat) : t.cut digits < perSecond :=
  Nat.lt_of_le_of_lt (Nat.div_mul_le_self _ _) t.subsecond_lt

/-- The first digits of a fraction have their full number. -/
theorem Instant.fractionText_spec (t : Instant) {digits : Nat}
    (h : digits = 3 ∨ digits = 6 ∨ digits = 9) :
    AllDigits (t.fractionText digits) ∧ (t.fractionText digits).length = digits
      ∧ digitsValue (t.fractionText digits) * Nat.pow 10 (9 - digits) = t.cut digits := by
  have hlt : t.subsecond / Nat.pow 10 (9 - digits) < 10 ^ digits := by
    have := t.subsecond_lt
    rw [perSecond] at this
    rcases h with rfl | rfl | rfl <;> simp <;> omega
  obtain ⟨blanks, ds, heq, -, hdigits, -, hvalue, hwidth⟩ :=
    exists_padTo (show 0 < digits by omega) .zeros (t.subsecond / Nat.pow 10 (9 - digits))
  obtain ⟨rfl, hlength⟩ := (hwidth hlt).2 (.inl rfl)
  rw [fractionText, zeroPadded, heq, List.nil_append, cut, hvalue]
  exact ⟨hdigits, hlength, rfl⟩

/-- A short fraction is exact. -/
theorem Instant.shortFraction_cases (t : Instant) : t.subsecond = 0 ∧ t.shortFraction = []
    ∨ ∃ digits, (digits = 3 ∨ digits = 6 ∨ digits = 9)
      ∧ t.shortFraction = '.' :: t.fractionText digits ∧ t.cut digits = t.subsecond := by
  unfold shortFraction cut
  split
  · next h => exact .inl ⟨h, rfl⟩
  · split
    · exact .inr ⟨3, .inl rfl, rfl, by simp; omega⟩
    · split
      · exact .inr ⟨6, .inr (.inl rfl), rfl, by simp; omega⟩
      · exact .inr ⟨9, .inr (.inr rfl), rfl, by simp⟩

end HttpContract.Calendar
