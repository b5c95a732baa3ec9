import HttpContract.Proofs.Calendar.Numerals

/-!
# Calendar.Reread — the text of an item is read back

Reading the text of an item gives the parts of the instant that the item tells and leaves the text
behind it (`Read.item?_itemText`), if that does not go on in a way that the item would take for its
own (`Item.EndsBefore`): a number of open width takes further digits, the name of a zone everything
up to a blank. Blanks behind a blank may be gone already (`Read.Unblanked`). A timestamp without a
format is read back as it is (`Read.iso?_timestampText`).
-/

namespace HttpContract.Calendar

open Json.Number (AllDigits digitsValue)

/-! ## Blanks -/

namespace Read

theorem isWhiteSpace_of_isDigit {c : Char} (h : c.isDigit = true) :
    Unicode.isWhiteSpace c = false := by
  have hrange : 48 ≤ c.toNat ∧ c.toNat ≤ 57 := by
    simpa [Char.isDigit, UInt32.le_iff_toNat_le] using h
  rw [Unicode.isWhiteSpace, if_pos (by omega), Bool.or_eq_false_iff]
  refine ⟨beq_eq_false_iff_ne.mpr ?_, by simp; omega⟩
  rintro rfl
  exact absurd hrange.1 (by decide)

theorem skipBlanks_of_head {cs : List Char} (h : ∀ c ∈ cs.head?, Unicode.isWhiteSpace c = false) :
    skipBlanks cs = cs := by
  cases cs with
  | nil => rfl
  | cons c rest => exact List.dropWhile_cons_of_neg (by simp [h c rfl])

theorem skipBlanks_skipBlanks (cs : List Char) : skipBlanks (skipBlanks cs) = skipBlanks cs := by
  induction cs with
  | nil => rfl
  | cons c rest ih =>
    by_cases h : Unicode.isWhiteSpace c = true
    · simp only [skipBlanks, List.dropWhile_cons_of_pos h] at *
      exact ih
    · exact skipBlanks_of_head (by simp [skipBlanks, List.dropWhile_cons_of_neg h, h])

theorem skipBlanks_append {blanks cs : List Char} (h : ∀ c ∈ blanks, c = ' ') :
    skipBlanks (blanks ++ cs) = skipBlanks cs :=
  List.dropWhile_append_of_pos fun c hc => by rw [h c hc]; decide

/-- A text as it is, or without the blanks at its start. -/
def Unblanked (cs text : List Char) : Prop := cs = text ∨ cs = skipBlanks text

theorem Unblanked.refl (text : List Char) : Unblanked text text := .inl rfl

theorem Unblanked.skipBlanks_eq {cs text : List Char} (h : Unblanked cs text) :
    skipBlanks cs = skipBlanks text := by
  rcases h with rfl | rfl
  · rfl
  · exact skipBlanks_skipBlanks text

theorem Unblanked.eq_of_head {cs text : List Char} (h : Unblanked cs text)
    (hhead : ∀ c ∈ text.head?, Unicode.isWhiteSpace c = false) : cs = text := by
  rcases h with rfl | rfl
  · rfl
  · exact skipBlanks_of_head hhead

/-! ## Items -/

theorem year?_append {digits behind : List Char} (hdigits : AllDigits digits) (hne : digits ≠ []) :
    year? (digits ++ behind)
      = (number? 4 (digits ++ behind)).map fun r => ((r.1 : Int), r.2) := by
  cases digits with
  | nil => exact absurd rfl hne
  | cons d ds =>
    have hd : d.isDigit = true := hdigits d List.mem_cons_self
    rw [List.cons_append, year?]
    · rintro rest ⟨⟩
      exact absurd hd (by decide)
    · rintro rest ⟨⟩
      exact absurd hd (by decide)

/-- A text that does not start with a blank. -/
def Solid (cs : List Char) : Prop := (cs.head?.any fun c => !Unicode.isWhiteSpace c) = true

theorem solid_cons {c : Char} (h : Unicode.isWhiteSpace c = false) (rest : List Char) :
    Solid (c :: rest) := (Bool.not_eq_true' _).mpr h

theorem Unblanked.eq_of_solid {first cs behind : List Char} (h : Unblanked cs (first ++ behind))
    (hfirst : Solid first) : cs = first ++ behind := by
  refine h.eq_of_head fun c hc => ?_
  cases first with
  | nil => cases hfirst
  | cons d more =>
    cases hc
    exact (Bool.not_eq_true' _).mp hfirst

/-- A text that starts with a digit. -/
def StartsDigit (cs : List Char) : Prop := cs.head?.any Char.isDigit = true

theorem StartsDigit.solid {cs : List Char} (h : StartsDigit cs) : Solid cs := by
  cases cs with
  | nil => cases h
  | cons c more => exact solid_cons (isWhiteSpace_of_isDigit h) more

theorem StartsDigit.append {cs : List Char} (h : StartsDigit cs) (rest : List Char) :
    StartsDigit (cs ++ rest) := by
  cases cs with
  | nil => cases h
  | cons c more => exact h

theorem startsDigit_of_allDigits {digits : List Char} (h : AllDigits digits) (hne : digits ≠ []) :
    StartsDigit digits := by
  cases digits with
  | nil => exact absurd rfl hne
  | cons d ds => exact h d List.mem_cons_self

/-- A text that starts with a letter or a sign: no blank, no digit and no point. -/
def StartsMark (cs : List Char) : Prop :=
  (cs.head?.any fun c => !Unicode.isWhiteSpace c && !c.isDigit && c ≠ '.') = true

instance (cs : List Char) : Decidable (StartsMark cs) := inferInstanceAs (Decidable (_ = true))

theorem StartsMark.spec {cs : List Char} (h : StartsMark cs) : ∃ c more, cs = c :: more
    ∧ Unicode.isWhiteSpace c = false ∧ c.isDigit = false ∧ c ≠ '.' := by
  cases cs with
  | nil => cases h
  | cons c more =>
    simp only [StartsMark, List.head?_cons, Option.any_some, Bool.and_eq_true, Bool.not_eq_true',
      decide_eq_true_eq] at h
    exact ⟨c, more, rfl, h.1.1, h.1.2, h.2⟩

theorem StartsMark.solid {cs : List Char} (h : StartsMark cs) : Solid cs := by
  obtain ⟨c, more, rfl, hsolid, -⟩ := h.spec
  exact solid_cons hsolid more

theorem startsMark_form :
    ∀ name ∈ Names.months ++ Names.weekdays, ∀ long, StartsMark (Names.form long name) := by
  decide +kernel

/-- No point stands at the start of a text, also not behind blanks. -/
def NoPoint (cs : List Char) : Prop := ∀ c ∈ (skipBlanks cs).head?, c ≠ '.'

theorem NoPoint.head {cs text : List Char} (h : NoPoint text) (hcs : Unblanked cs text) :
    ∀ c ∈ cs.head?, c ≠ '.' := by
  rintro c hc rfl
  have hsame : skipBlanks cs = cs := skipBlanks_of_head fun d hd => by
    cases hc.symm.trans hd
    decide
  refine h '.' ?_ rfl
  rwa [← hcs.skipBlanks_eq, hsame]

end Read

namespace Item

open Read (NoDigit NoPoint)

/-- What the items of a format are made of: blanks are white space and other characters are not, and
a fraction is cut behind a group of three digits. -/
def Proper : Item → Prop
  | .literal c => Unicode.isWhiteSpace c = false
  | .blank c => Unicode.isWhiteSpace c = true
  | .fraction (some digits) => digits = 3 ∨ digits = 6 ∨ digits = 9
  | .fractionDigits digits => digits = 3 ∨ digits = 6 ∨ digits = 9
  | _ => True

/-- The digits of the fraction that an item tells. -/
def precision? : Item → Option Nat
  | .number .nanosecond _ => some 9
  | .fraction none => some 9
  | .fraction (some digits) => some digits
  | .fractionDigits digits => some digits
  | .timestampText => some 9
  | _ => none

/-- The text of an item ends where another one begins. An offset that is written in other places
than it is read in does not end anywhere. -/
def EndsBefore (behind : List Char) : Item → Prop
  | .number field padding => field.isFixed padding = true ∨ NoDigit behind
  | .fraction none => NoDigit behind ∧ NoPoint behind
  | .zoneName => ∀ c ∈ behind.head?, Unicode.isWhiteSpace c = true
  | .offset style => style = .plain ∨ style = .colon
  | _ => True

/-- Items whose text starts with a letter or a sign. -/
def startsMark : Item → Bool
  | .monthName _ | .weekdayName _ | .halfDay _ | .zoneName | .offset _ => true
  | _ => false

end Item

namespace Read

section Items

variable {t : Instant} {fraction : Nat} {parts : List Part}

theorem field?_numberText (ht : t.Plain) (padding : Padding) {field : NumberField}
    (hfield : t.Unsigned field.parts) {cs behind : List Char}
    (hcs : Unblanked cs (t.numberText padding field ++ behind))
    (h : field.isFixed padding = true ∨ NoDigit behind) :
    field? field cs = some ((t.number field : Int), behind) := by
  obtain ⟨blanks, digits, heq, hblanks, hdigits, hne, hvalue, hwidth, hfixed⟩ :=
    ht.exists_numberText padding hfield
  have hskip : skipBlanks cs = digits ++ behind := by
    rw [hcs.skipBlanks_eq, heq, List.append_assoc, skipBlanks_append hblanks]
    refine skipBlanks_of_head fun c hc => isWhiteSpace_of_isDigit (hdigits c ?_)
    cases digits with
    | nil => exact absurd rfl hne
    | cons d ds =>
      cases hc
      exact List.mem_cons_self
  have hread (hne' : field ≠ .timestamp) : (number? field.places (digits ++ behind)).map
      (fun r => ((r.1 : Int), r.2)) = some ((t.number field : Int), behind) := by
    rw [number?_append hdigits hne (hwidth hne') (h.imp_left fun hfull => (hfixed hfull).2), hvalue]
    rfl
  unfold field?
  simp only [hskip]
  cases field with
  | year => exact (year?_append hdigits hne).trans (hread nofun)
  | weekYear => exact (year?_append hdigits hne).trans (hread nofun)
  | timestamp =>
    have hall : digits.length ≤ (digits ++ behind).length := by simp
    have hno : NoDigit behind := h.resolve_left nofun
    simp only [width?, Option.getD_none, number?_append hdigits hne hall (.inr hno), hvalue]
    rfl
  | _ => exact hread nofun

/-- Putting a number of the instant adds the parts that it tells. -/
theorem putNumber?_told (ht : t.Plain) (hfraction : fraction < Instant.perSecond)
    {field : NumberField} (hfield : t.Unsigned field.parts)
    (hexact : field = .nanosecond → fraction = t.subsecond) :
    (Fields.told (t.part fraction) parts).putNumber? field (t.number field)
      = some (Fields.told (t.part fraction) (field.parts.reverse ++ parts)) := by
  have hput {parts : List Part} {p : Part} {v : Int} (h : v = t.part fraction p) :
      (Fields.told (t.part fraction) parts).put? p v
        = some (Fields.told (t.part fraction) (p :: parts)) :=
    h ▸ Fields.put?_told (ht.part_inRange hfraction p)
  have hyear := ht.year
  have hweekYear := ht.weekYear
  have hnano := ht.nanoseconds
  have hmonth := t.day.month_bounds
  have hday := t.day.dayOfMonth_bounds
  have hsunday := t.day.weekFrom_bounds 6
  have hmonday := t.day.weekFrom_bounds 0
  have hweek := t.day.week_bounds
  have hweekday := t.day.weekday_bounds
  have hplace := t.day.dayOfYear_bounds
  have hhour : (t.hour : Int) = t.secondOfDay / 3600 := by
    simp only [Instant.hour, Instant.secondOfDay, Instant.perDay]
    omega
  cases field with
  | hour =>
    have hhalf : (t.hour : Int) / 12 = t.part fraction .half := by rw [hhour, Instant.part]
    have hrest : (t.hour : Int) % 12 = t.part fraction .hourOfHalf := by rw [hhour, Instant.part]
    rw [Fields.putNumber?, Instant.number, hput hhalf, Option.bind_some, hput hrest]
    rfl
  | clockHour =>
    have hclock : 1 ≤ (t.clockHour : Int) ∧ (t.clockHour : Int) ≤ 12
        ∧ (t.clockHour : Int) % 12 = (t.hour : Int) % 12 := by
      rw [Instant.clockHour]
      split <;> omega
    rw [Fields.putNumber?, Instant.number, if_pos ⟨hclock.1, hclock.2.1⟩, hclock.2.2, hhour]
    exact hput rfl
  | weekdayFromSunday =>
    have hsince : (t.number .weekdayFromSunday : Int) < 7
        ∧ ((t.number .weekdayFromSunday : Int) + 6) % 7 = t.day.weekday := by
      simp only [Instant.number, Day.daysSince]
      omega
    rw [Fields.putNumber?, if_pos hsince.1, hsince.2]
    exact hput rfl
  | timestamp =>
    have hpos := hfield.timestamp List.mem_cons_self
    exact hput (by simp only [Instant.number, Instant.part]; omega)
  | weekYear =>
    have hpos := hfield.weekYear (.inl List.mem_cons_self)
    exact hput (by simp only [Instant.number, Instant.part]; omega)
  | nanosecond => exact hput (by rw [Instant.part, hexact rfl]; rfl)
  | _ =>
    refine hput ?_
    simp only [Instant.number, Instant.part, Day.quarter, Instant.minute, Instant.second,
      Instant.secondOfDay, Instant.perDay, Instant.perSecond] at *
    omega

/-- Putting a part that was read adds it. -/
theorem put?_told (ht : t.Plain) (hfraction : fraction < Instant.perSecond) {p : Part} {v : Int}
    (hv : v = t.part fraction p) (parts : List Part) (rest : List Char) :
    put? p (Fields.told (t.part fraction) parts) (some (v, rest))
      = some (Fields.told (t.part fraction) (p :: parts), rest) := by
  subst hv
  simp [put?, Fields.put?_told (ht.part_inRange hfraction p)]

theorem simpleItem?_number (ht : t.Plain) (hfraction : fraction < Instant.perSecond)
    (padding : Padding) {field : NumberField} (hfield : t.Unsigned field.parts)
    (hexact : field = .nanosecond → fraction = t.subsecond) {cs behind : List Char}
    (hcs : Unblanked cs (t.numberText padding field ++ behind))
    (h : field.isFixed padding = true ∨ NoDigit behind) (other : Padding) :
    simpleItem? (Fields.told (t.part fraction) parts) cs (.number field other)
      = some (Fields.told (t.part fraction) (field.parts.reverse ++ parts), behind) := by
  simp only [simpleItem?, Option.bind_eq_bind, field?_numberText ht padding hfield hcs h,
    Option.bind_some, putNumber?_told ht hfraction hfield hexact]

/-! ## Fractions -/

theorem fixedFraction?_append {digits : Nat} (h : digits = 3 ∨ digits = 6 ∨ digits = 9)
    (behind : List Char) :
    fixedFraction? digits (t.fractionText digits ++ behind) =
      some ((t.cut digits : Int), behind) := by
  obtain ⟨hdigits, hlength, hvalue⟩ := t.fractionText_spec h
  have hread := @fixed?_append _ behind hdigits
  rw [hlength] at hread
  rw [fixedFraction?, hread, Option.map_some, hvalue]

theorem fraction?_append {digits : Nat} (h : digits = 3 ∨ digits = 6 ∨ digits = 9)
    {behind : List Char} (hbehind : NoDigit behind) :
    fraction? (t.fractionText digits ++ behind) = some ((t.cut digits : Int), behind) := by
  obtain ⟨hdigits, hlength, hvalue⟩ := t.fractionText_spec h
  have hdrop : behind.dropWhile Char.isDigit = behind := by
    cases behind with
    | nil => rfl
    | cons c rest => exact List.dropWhile_cons_of_neg (by simp [hbehind c rfl])
  rw [fraction?, takeDigits_append hdigits (by omega) (.inr hbehind)]
  rw [← valueOf_eq_digitsValue] at hvalue
  generalize t.fractionText digits = ds at *
  cases ds with
  | nil => simp at hlength; omega
  | cons d ds => simp only [hlength, hvalue, hdrop]

/-- The fraction as exact as it is needed is read back, also if there is none. -/
theorem optionalFraction?_shortFraction (ht : t.Plain) (hexact : fraction = t.subsecond)
    (parts : List Part) {cs behind : List Char} (hcs : Unblanked cs (t.shortFraction ++ behind))
    (hdigit : NoDigit behind) (hpoint : NoPoint behind) :
    ∃ others rest, optionalFraction? (Fields.told (t.part fraction) parts) cs
        = some (Fields.told (t.part fraction) others, rest)
      ∧ Unblanked rest behind ∧ ∀ p, p ≠ .nanosecond → (p ∈ others ↔ p ∈ parts) := by
  have hfraction : fraction < Instant.perSecond := hexact ▸ t.subsecond_lt
  obtain ⟨-, hnone⟩ | ⟨digits, hdigits, hsome, hcut⟩ := t.shortFraction_cases
  · rw [hnone, List.nil_append] at hcs
    refine ⟨parts, cs, ?_, hcs, fun _ _ => .rfl⟩
    unfold optionalFraction?
    split
    · exact absurd rfl (hpoint.head hcs '.' rfl)
    · rfl
  · rw [hsome, List.cons_append] at hcs
    obtain rfl := hcs.eq_of_head (by rintro _ ⟨⟩; decide)
    refine ⟨.nanosecond :: parts, behind, ?_, .refl behind, fun p hp => by simp [hp]⟩
    rw [optionalFraction?, fraction?_append hdigits hdigit]
    exact put?_told ht hfraction (by rw [Instant.part, hexact, hcut]) _ behind

/-! ## Timestamps -/

/-- A number that always has all its digits, at the start of a text. -/
theorem simpleItems?_number (ht : t.Plain) (hfraction : fraction < Instant.perSecond)
    (field : NumberField) (hfield : field.isUsual = true) (items : List Item)
    (behind : List Char) :
    simpleItems? (.number field .zeros :: items) (Fields.told (t.part fraction) parts)
        (t.numberText .zeros field ++ behind)
      = simpleItems? items (Fields.told (t.part fraction) (field.parts.reverse ++ parts))
        behind := by
  obtain ⟨hpos, htimestamp, hnanosecond⟩ := t.unsigned_of_isUsual hfield
  have hfixed : field.isFixed .zeros = true := by simp [NumberField.isFixed, htimestamp]
  rw [simpleItems?, simpleItem?_number ht hfraction .zeros hpos (fun h => absurd h hnanosecond)
    (.refl _) (.inl hfixed)]
  rfl

/-- A mark between numbers, before which blanks are allowed. -/
theorem simpleItems?_mark {c : Char} (hc : Unicode.isWhiteSpace c = false) (items : List Item)
    (fields : Fields) (cs : List Char) :
    simpleItems? (.blank ' ' :: .literal c :: items) fields (c :: cs)
      = simpleItems? items fields cs := by
  have hskip : skipBlanks (c :: cs) = c :: cs := skipBlanks_of_head (by rintro _ ⟨⟩; exact hc)
  simp [simpleItems?, simpleItem?, hskip]

theorem simpleItems?_looseDate (ht : t.Plain) (hfraction : fraction < Instant.perSecond)
    (behind : List Char) :
    simpleItems? looseDate (Fields.told (t.part fraction) parts) (t.dateText ++ behind)
      = some (Fields.told (t.part fraction) (.day :: .month :: .year :: parts), behind) := by
  have hmark : Unicode.isWhiteSpace '-' = false := by decide
  simp only [Instant.dateText, List.append_assoc, List.cons_append, looseDate]
  rw [show yearText .zeros t.day.year = t.numberText .zeros .year from rfl,
    simpleItems?_number ht hfraction .year (by decide), simpleItems?_mark hmark,
    simpleItems?_number ht hfraction .month (by decide), simpleItems?_mark hmark,
    simpleItems?_number ht hfraction .day (by decide)]
  rfl

theorem simpleItems?_looseTime (ht : t.Plain) (hexact : fraction = t.subsecond)
    (parts : List Part) {behind : List Char} (hbehind : ∀ c ∈ behind.head?, c = '+') :
    ∃ others, simpleItems? looseTime (Fields.told (t.part fraction) parts)
        (t.timeText ++ (t.shortFraction ++ behind))
          = some (Fields.told (t.part fraction) others, behind)
      ∧ ∀ p, p ≠ .nanosecond →
        (p ∈ others ↔ p ∈ .second :: .minute :: .hourOfHalf :: .half :: parts) := by
  have hmark : Unicode.isWhiteSpace ':' = false := by decide
  have hfraction : fraction < Instant.perSecond := hexact ▸ t.subsecond_lt
  have hskip : skipBlanks behind = behind := skipBlanks_of_head fun c hc => by
    rw [hbehind c hc]
    decide
  have hdigit : NoDigit behind := fun c hc => by
    rw [hbehind c hc]
    decide
  have hpoint : NoPoint behind := fun c hc => by
    rw [hskip] at hc
    rw [hbehind c hc]
    decide
  obtain ⟨others, rest, hread, hrest, hothers⟩ := optionalFraction?_shortFraction ht hexact
    (.second :: .minute :: .hourOfHalf :: .half :: parts) (.refl _) hdigit hpoint
  have hlast : skipBlanks rest = behind := by rw [hrest.skipBlanks_eq, hskip]
  refine ⟨others, ?_, hothers⟩
  simp only [Instant.timeText, List.append_assoc, List.cons_append, looseTime]
  rw [simpleItems?_number ht hfraction .hour (by decide), simpleItems?_mark hmark,
    simpleItems?_number ht hfraction .minute (by decide), simpleItems?_mark hmark,
    simpleItems?_number ht hfraction .second (by decide)]
  simp only [NumberField.parts, List.reverse_cons, List.reverse_nil, List.nil_append,
    List.cons_append, simpleItems?, simpleItem?, hread, Option.bind_eq_bind,
    Option.bind_some, hlast]

theorem signedOffset?_zero (dropped : List Char) (h : dropped = [] ∨ dropped = [':'])
    (behind : List Char) :
    signedOffset? dropColons? false ('+' :: '0' :: '0' :: (dropped ++ '0' :: '0' :: behind))
      = some (0, behind) := by
  have hread (rest : List Char) : fixed? 2 ('0' :: '0' :: rest) = some (0, rest) :=
    @fixed?_append ['0', '0'] rest (by simp [AllDigits])
  have hdrop : dropColons? (dropped ++ '0' :: '0' :: behind) = some ('0' :: '0' :: behind) := by
    rcases h with rfl | rfl <;> simp [dropColons?, List.dropWhile, Unicode.isWhiteSpace]
  simp [signedOffset?, sign?, hread, hdrop]

/-- The offset of universal time is read back, with a colon or without. -/
theorem simpleItem?_offset {style : OffsetStyle} (hstyle : style = .plain ∨ style = .colon)
    {first : List Char} (hfirst : t.itemText? (.offset style) = some first) (fields : Fields)
    (behind : List Char) :
    simpleItem? fields (first ++ behind) (.offset style) =
      put? .offset fields (some (0, behind)) := by
  rcases hstyle with rfl | rfl
  · cases hfirst
    rw [← signedOffset?_zero [] (.inl rfl) behind]
    rfl
  · cases hfirst
    rw [← signedOffset?_zero [':'] (.inr rfl) behind]
    rfl

/-- A timestamp is read back. -/
theorem timestamp?_itemText (ht : t.Plain) (hexact : fraction = t.subsecond) (parts : List Part)
    {first : List Char} (hfirst : t.itemText? .timestampText = some first) (behind : List Char) :
    ∃ others, timestamp? (Fields.told (t.part fraction) parts) (first ++ behind)
        = some (Fields.told (t.part fraction) others, behind)
      ∧ ∀ p, p ≠ .nanosecond → (p ∈ others ↔ p ∈ Item.timestampText.parts ∨ p ∈ parts) := by
  have hfraction : fraction < Instant.perSecond := hexact ▸ t.subsecond_lt
  simp only [Instant.itemText?, Option.some.injEq] at hfirst
  subst hfirst
  have hsign : ∀ c ∈ ('+' :: '0' :: '0' :: ':' :: '0' :: '0' :: behind).head?, c = '+' := by
    rintro _ ⟨⟩
    rfl
  obtain ⟨others, htime, hothers⟩ :=
    simpleItems?_looseTime ht hexact (.day :: .month :: .year :: parts) hsign
  refine ⟨.offset :: others, ?_, fun p hp => ?_⟩
  · simp only [List.append_assoc, List.cons_append, List.nil_append] at *
    rw [timestamp?, simpleItems?_looseDate ht hfraction]
    have hword : Names.dropWord? ['u', 't', 'c'] ('+' :: '0' :: '0' :: ':' :: '0' :: '0' :: behind)
        = none := if_neg (by simp [Names.lower])
    have hoffset : offset? dropColons? false ('+' :: '0' :: '0' :: ':' :: '0' :: '0' :: behind)
        = some (0, behind) := signedOffset?_zero [':'] (.inr rfl) behind
    simp only [Option.bind_eq_bind, Option.bind_some, dropMark?, htime, hword, hoffset]
    exact put?_told ht hfraction rfl _ behind
  · rw [List.mem_cons, hothers p hp]
    simp only [Item.parts, List.mem_cons, List.not_mem_nil, or_false, hp, false_or]
    exact iff_of_eq (by ac_rfl)

theorem exists_monthName (t : Instant) (fraction : Nat) :
    ∃ name, Names.months[(t.day.month - 1).toNat]? = some name
      ∧ ((1 + (t.day.month - 1).toNat : Nat) : Int) = t.part fraction .month := by
  have hbounds := t.day.month_bounds
  have hlt : (t.day.month - 1).toNat < Names.months.length := by
    rw [show Names.months.length = 12 from rfl]
    omega
  exact ⟨_, List.getElem?_eq_getElem hlt, by rw [Instant.part]; omega⟩

theorem exists_weekdayName (t : Instant) (fraction : Nat) :
    ∃ name, Names.weekdays[t.day.weekday.toNat]? = some name
      ∧ ((0 + t.day.weekday.toNat : Nat) : Int) = t.part fraction .weekday := by
  have hbounds := t.day.weekday_bounds
  have hlt : t.day.weekday.toNat < Names.weekdays.length := by
    rw [show Names.weekdays.length = 7 from rfl]
    omega
  exact ⟨_, List.getElem?_eq_getElem hlt, by rw [Instant.part]; omega⟩

theorem startsMark_itemText {item : Item} (hitem : item.startsMark = true) {first : List Char}
    (hfirst : t.itemText? item = some first) : StartsMark first := by
  cases item with
  | monthName long =>
    obtain ⟨name, hname, -⟩ := exists_monthName t 0
    simp only [Instant.itemText?, hname, Option.map_some, Option.getD_some,
      Option.some.injEq] at hfirst
    exact hfirst ▸ startsMark_form name (by simp [List.mem_of_getElem? hname]) long
  | weekdayName long =>
    obtain ⟨name, hname, -⟩ := exists_weekdayName t 0
    simp only [Instant.itemText?, hname, Option.map_some, Option.getD_some,
      Option.some.injEq] at hfirst
    exact hfirst ▸ startsMark_form name (by simp [List.mem_of_getElem? hname]) long
  | halfDay upper =>
    simp only [Instant.itemText?, Option.some.injEq] at hfirst
    subst hfirst
    cases upper <;> cases decide (t.hour < 12) <;> decide
  | zoneName =>
    cases hfirst
    decide
  | offset style => cases style <;> cases hfirst <;> decide
  | _ => cases hitem

/-- The mark of the half of a day is read back. -/
theorem halfDay?_itemText {upper : Bool} {first : List Char}
    (hfirst : t.itemText? (.halfDay upper) = some first) (behind : List Char) :
    halfDay? (first ++ behind) = some (t.part fraction .half, behind) := by
  have hhour : (t.hour : Int) = t.secondOfDay / 3600 := by
    simp only [Instant.hour, Instant.secondOfDay, Instant.perDay]
    omega
  have hbound : t.secondOfDay / 3600 < 24 := by
    simp only [Instant.secondOfDay, Instant.perDay]
    omega
  rw [Instant.part, ← hhour]
  simp only [Instant.itemText?, Option.some.injEq] at hfirst
  subst hfirst
  by_cases h : t.hour < 12
  · have hhalf : (t.hour : Int) / 12 = 0 := by omega
    rw [hhalf, decide_eq_true h]
    cases upper <;> simp [halfDay?, Names.dropWord?, Names.lower]
  · have hhalf : (t.hour : Int) / 12 = 1 := by omega
    rw [hhalf, decide_eq_false h]
    cases upper <;> simp [halfDay?, Names.dropWord?, Names.lower]

theorem dropWhile_zone {behind : List Char}
    (h : ∀ c ∈ behind.head?, Unicode.isWhiteSpace c = true) :
    (['U', 'T', 'C'] ++ behind).dropWhile (fun c => !Unicode.isWhiteSpace c) = behind := by
  have hbehind : behind.dropWhile (fun c => !Unicode.isWhiteSpace c) = behind := by
    cases behind with
    | nil => rfl
    | cons c rest => exact List.dropWhile_cons_of_neg (by simp [h c rfl])
  rw [List.dropWhile_append_of_pos (by simp [Unicode.isWhiteSpace]), hbehind]

theorem startsDigit_timestampText (ht : t.Plain) {first : List Char}
    (hfirst : t.itemText? .timestampText = some first) : StartsDigit first := by
  have hpos : t.Unsigned NumberField.year.parts := (t.unsigned_of_isUsual rfl).1
  obtain ⟨blanks, digits, heq, -, hdigits, hne, -, -, hfixed⟩ := ht.exists_numberText .zeros hpos
  obtain ⟨rfl, -⟩ := hfixed rfl
  have hyear : StartsDigit (yearText .zeros t.day.year) := by
    rw [show yearText .zeros t.day.year = t.numberText .zeros .year from rfl, heq]
    exact startsDigit_of_allDigits hdigits hne
  cases hfirst
  simp only [Instant.dateText, List.append_assoc]
  exact hyear.append _

theorem simpleItem?_monthName {long : Bool} {first : List Char}
    (hfirst : t.itemText? (.monthName long) = some first) (fraction : Nat) (fields : Fields)
    (behind : List Char) :
    simpleItem? fields (first ++ behind) (.monthName long)
      = put? .month fields (some (t.part fraction .month, behind)) := by
  obtain ⟨name, hname, hvalue⟩ := exists_monthName t fraction
  simp only [Instant.itemText?, hname, Option.map_some, Option.getD_some,
    Option.some.injEq] at hfirst
  subst hfirst
  rw [simpleItem?, Names.read?_form long Names.distinct_months hname, Option.map_some, hvalue]

theorem simpleItem?_weekdayName {long : Bool} {first : List Char}
    (hfirst : t.itemText? (.weekdayName long) = some first) (fraction : Nat) (fields : Fields)
    (behind : List Char) :
    simpleItem? fields (first ++ behind) (.weekdayName long)
      = put? .weekday fields (some (t.part fraction .weekday, behind)) := by
  obtain ⟨name, hname, hvalue⟩ := exists_weekdayName t fraction
  simp only [Instant.itemText?, hname, Option.map_some, Option.getD_some,
    Option.some.injEq] at hfirst
  subst hfirst
  rw [simpleItem?, Names.read?_form long Names.distinct_weekdays hname, Option.map_some, hvalue]

/-- An item is read: its parts are known then, and what is behind it is left. -/
def ReadsBack (t : Instant) (fraction : Nat) (parts : List Part) (item : Item)
    (cs behind : List Char) : Prop :=
  ∃ others rest, item? item (Fields.told (t.part fraction) parts) cs
      = some (Fields.told (t.part fraction) others, rest)
    ∧ Unblanked rest behind
    ∧ ∀ p, p ≠ .nanosecond → (p ∈ others ↔ p ∈ item.parts ∨ p ∈ parts)

/-- An item of one part is read if its value is. -/
theorem ReadsBack.part (ht : t.Plain) (hfraction : fraction < Instant.perSecond) {item : Item}
    {p : Part} (hitem : item ≠ .timestampText) (hparts : item.parts = [p]) {cs behind : List Char}
    (hread : ∀ fields, simpleItem? fields cs item
      = put? p fields (some (t.part fraction p, behind))) :
    ReadsBack t fraction parts item cs behind := by
  refine ⟨p :: parts, behind, ?_, .refl behind, fun _ _ => by simp [hparts]⟩
  rw [item?, if_neg hitem, hread]
  exact put?_told ht hfraction rfl _ behind

theorem readsBack_fraction (ht : t.Plain) (hfraction : fraction < Instant.perSecond)
    {precision : Option Nat} (hproper : (Item.fraction precision).Proper)
    (hexact : ∀ digits ∈ (Item.fraction precision).precision?, fraction = t.cut digits)
    {first cs behind : List Char} (hfirst : t.itemText? (.fraction precision) = some first)
    (hends : (Item.fraction precision).EndsBefore behind)
    (hcs : Unblanked cs (first ++ behind)) :
    ReadsBack t fraction parts (.fraction precision) cs behind := by
  cases precision with
  | none =>
    cases hfirst
    have hsame : fraction = t.subsecond := t.cut_nine ▸ hexact 9 rfl
    obtain ⟨others, rest, hread, hrest, hothers⟩ :=
      optionalFraction?_shortFraction ht hsame parts hcs hends.1 hends.2
    refine ⟨others, rest, ?_, hrest, fun p hp => by simp [Item.parts, hothers p hp, hp]⟩
    rw [item?, if_neg (by simp)]
    exact hread
  | some digits =>
    cases hfirst
    obtain rfl := hcs.eq_of_solid (solid_cons (by decide) _)
    have hcut : t.part fraction .nanosecond = t.cut digits := by
      rw [Instant.part, hexact digits rfl]
    refine .part ht hfraction (by simp) rfl fun fields => ?_
    rw [List.cons_append, simpleItem?, optionalFixedFraction?, fixedFraction?_append hproper, hcut]

theorem readsBack_fractionDigits (ht : t.Plain) (hfraction : fraction < Instant.perSecond)
    {digits : Nat} (hproper : (Item.fractionDigits digits).Proper)
    (hexact : fraction = t.cut digits) {cs behind : List Char}
    (hcs : Unblanked cs (t.fractionText digits ++ behind)) :
    ReadsBack t fraction parts (.fractionDigits digits) cs behind := by
  obtain ⟨hdigits, hlength, -⟩ := t.fractionText_spec hproper
  have hne : t.fractionText digits ≠ [] := by
    rw [← List.length_pos_iff]
    rcases hproper with h | h | h <;> omega
  obtain rfl := hcs.eq_of_solid (startsDigit_of_allDigits hdigits hne).solid
  have hcut : t.part fraction .nanosecond = t.cut digits := by rw [Instant.part, hexact]
  refine .part ht hfraction (by simp) rfl fun fields => ?_
  rw [simpleItem?, fixedFraction?_append hproper, hcut]

/-- The text of an item is read back, and what is behind it is left. -/
theorem item?_itemText (ht : t.Plain) (hfraction : fraction < Instant.perSecond) {item : Item}
    (parts : List Part) (hitem : item.Proper)
    (hexact : ∀ digits ∈ item.precision?, fraction = t.cut digits) (hpos : t.Unsigned item.parts)
    {first cs behind : List Char} (hfirst : t.itemText? item = some first)
    (hends : item.EndsBefore behind) (hcs : Unblanked cs (first ++ behind)) :
    ReadsBack t fraction parts item cs behind := by
  cases item with
  | literal c =>
    cases hfirst
    obtain rfl := hcs.eq_of_solid (solid_cons hitem [])
    exact ⟨parts, behind, by simp [item?, simpleItem?], .refl behind, by simp [Item.parts]⟩
  | blank c =>
    cases hfirst
    have hskip : skipBlanks cs = skipBlanks behind := by
      rw [hcs.skipBlanks_eq]
      exact List.dropWhile_cons_of_pos hitem
    exact ⟨parts, skipBlanks behind, by simp [item?, simpleItem?, hskip], .inr rfl,
      by simp [Item.parts]⟩
  | number field padding =>
    cases hfirst
    have hnano : field = .nanosecond → fraction = t.subsecond := by
      rintro rfl
      rw [← t.cut_nine]
      exact hexact 9 rfl
    refine ⟨field.parts.reverse ++ parts, behind, ?_, .refl behind, by simp [Item.parts]⟩
    rw [item?, if_neg (by simp)]
    exact simpleItem?_number ht hfraction padding hpos hnano hcs hends padding
  | monthName long =>
    obtain rfl := hcs.eq_of_solid (startsMark_itemText rfl hfirst).solid
    exact .part ht hfraction (by simp) rfl (simpleItem?_monthName hfirst fraction · behind)
  | weekdayName long =>
    obtain rfl := hcs.eq_of_solid (startsMark_itemText rfl hfirst).solid
    exact .part ht hfraction (by simp) rfl (simpleItem?_weekdayName hfirst fraction · behind)
  | halfDay upper =>
    obtain rfl := hcs.eq_of_solid (startsMark_itemText rfl hfirst).solid
    refine .part ht hfraction (by simp) rfl fun fields => ?_
    rw [simpleItem?, halfDay?_itemText hfirst]
  | fraction precision => exact readsBack_fraction ht hfraction hitem hexact hfirst hends hcs
  | fractionDigits digits =>
    cases hfirst
    exact readsBack_fractionDigits ht hfraction hitem (hexact digits rfl) hcs
  | zoneName =>
    obtain rfl := hcs.eq_of_solid (startsMark_itemText rfl hfirst).solid
    cases hfirst
    refine ⟨parts, behind, ?_, .refl behind, by simp [Item.parts]⟩
    rw [item?, if_neg (by simp), simpleItem?, dropWhile_zone hends]
  | offset style =>
    obtain rfl := hcs.eq_of_solid (startsMark_itemText rfl hfirst).solid
    exact .part ht hfraction (by simp) rfl (simpleItem?_offset hends hfirst · behind)
  | timestampText =>
    have hsame : fraction = t.subsecond := t.cut_nine ▸ hexact 9 rfl
    obtain rfl := hcs.eq_of_solid (startsDigit_timestampText ht hfirst).solid
    obtain ⟨others, hread, hothers⟩ := timestamp?_itemText ht hsame parts hfirst behind
    exact ⟨others, behind, by rw [item?, if_pos rfl, hread], .refl behind, hothers⟩

/-! ## ISO 8601 -/

theorem fixedPart?_numberText (ht : t.Plain) (hfraction : fraction < Instant.perSecond)
    (parts : List Part) (field : NumberField) (hfield : field.isUsual = true)
    (drop? : List Char → Option (List Char)) (behind : List Char) :
    fixedPart? field field.places drop? (Fields.told (t.part fraction) parts)
        (t.numberText .zeros field ++ behind)
      = (drop? behind).map fun rest =>
        (Fields.told (t.part fraction) (field.parts.reverse ++ parts), rest) := by
  obtain ⟨hpos, htimestamp, hnanosecond⟩ := t.unsigned_of_isUsual hfield
  obtain ⟨blanks, digits, heq, -, hdigits, -, hvalue, -, hfixed⟩ := ht.exists_numberText .zeros hpos
  obtain ⟨rfl, hlength⟩ := hfixed (by simp [NumberField.isFixed, htimestamp])
  have hread := @fixed?_append _ behind hdigits
  rw [hlength, hvalue] at hread
  rw [fixedPart?, heq, List.nil_append, hread]
  simp only [Option.bind_eq_bind, Option.bind_some,
    putNumber?_told ht hfraction hpos fun h => absurd h hnanosecond]
  cases drop? behind <;> rfl

/-- What is told by a timestamp in its strict form. -/
theorem strictTimestamp?_timestampText (ht : t.Plain) :
    strictTimestamp? t.timestampText.toList = some (Fields.told (t.part (t.cut 3))
      [.offset, .nanosecond, .second, .minute, .hourOfHalf, .half, .day, .month, .year]) := by
  have hfraction := t.cut_lt 3
  have hyear : yearText .zeros t.day.year = t.numberText .zeros .year := rfl
  have hpart := fixedPart?_numberText ht hfraction
  have hyear? (more : List Char) := hpart [] .year (by decide) dropDash? ('-' :: more)
  have hmonth? (more : List Char) := hpart [.year] .month (by decide) dropDash? ('-' :: more)
  have hday? (more : List Char) := hpart [.month, .year] .day (by decide) dropMark? ('T' :: more)
  have hhour? (more : List Char) :=
    hpart [.day, .month, .year] .hour (by decide) dropColon? (':' :: more)
  have hminute? (more : List Char) :=
    hpart [.hourOfHalf, .half, .day, .month, .year] .minute (by decide) dropColon? (':' :: more)
  have hsecond? (more : List Char) :=
    hpart [.minute, .hourOfHalf, .half, .day, .month, .year] .second (by decide) some more
  have hdigits : fraction? (t.fractionText 3 ++ ['Z']) = some ((t.cut 3 : Int), ['Z']) :=
    fraction?_append (.inl rfl) (by rintro _ ⟨⟩; decide)
  have hfractionPart : (t.cut 3 : Int) = t.part (t.cut 3) .nanosecond := rfl
  have hoffsetPart : 0 = t.part (t.cut 3) .offset := rfl
  have hnano (parts : List Part) := put?_told ht hfraction hfractionPart parts ['Z']
  have hoffset (parts : List Part) := put?_told ht hfraction hoffsetPart parts []
  simp only [NumberField.places, NumberField.parts, dropDash?, dropMark?, dropColon?,
    Option.map_some, List.reverse_cons, List.reverse_nil, List.nil_append, List.cons_append]
    at hyear? hmonth? hday? hhour? hminute? hsecond?
  rw [Instant.timestampText, String.toList_ofList]
  simp only [Instant.dateText, Instant.timeText, List.append_assoc, List.cons_append, hyear]
  rw [strictTimestamp?, ← Fields.told_nil (t.part (t.cut 3))]
  simp only [Option.bind_eq_bind, hyear?, hmonth?, hday?, hhour?, hminute?, hsecond?,
    Option.bind_some, optionalFraction?, hdigits, hnano, hoffset, offset?]
  rfl

/-- An instant that is written without a format is read back. -/
theorem iso?_timestampText (ht : t.Plain) : (iso? t.timestampText.toList).isSome = true := by
  have hpos : t.Unsigned [.offset, .nanosecond, .second, .minute, .hourOfHalf, .half, .day, .month,
      .year] := ⟨fun h => absurd h (by decide), fun h => absurd h (by decide)⟩
  have hday : (Fields.told (t.part (t.cut 3)) [.offset, .nanosecond, .second, .minute, .hourOfHalf,
      .half, .day, .month, .year]).day = .ok t.day :=
    Fields.day_told _ ht hpos (by decide) (fun _ => if_pos (by decide))
      (fun h => absurd (by decide) h)
  obtain ⟨time, htime⟩ : ∃ time, (Fields.told (t.part (t.cut 3)) [.offset, .nanosecond, .second,
      .minute, .hourOfHalf, .half, .day, .month, .year]).time = .ok time :=
    Fields.exists_time_told _ (by decide) (by decide) (by decide) (by decide)
  have hzoned := Fields.zonedInstant?_told _ ht (t.cut_lt 3) hday htime (by decide) (by decide)
  simp only [iso?, Option.orElse_eq_orElse, Option.orElse_eq_or, Option.isSome_or,
    strictTimestamp?_timestampText ht, Option.bind_some, hzoned, Bool.true_or]

end Items

end Read

end HttpContract.Calendar
