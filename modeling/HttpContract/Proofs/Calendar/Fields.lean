import HttpContract.Calendar.Read
import HttpContract.Proofs.Basic
import HttpContract.Proofs.Calendar.Instant

/-!
# Calendar.Fields — what reading keeps

Everything that a reader of dates learns goes through `Fields.put?`, so a property of fields that
putting keeps is kept by reading as a whole (`Read.simpleItems?_keeps`, `Read.items?_keeps`). The
property at hand here: each part lies in its range (`Fields.InRange`). It bounds the time of day,
and the day is checked by its constructor, so that every instant that is read is proper
(`Read.iso?_proper`, `Read.formatted?_proper`): it lies in the calendar, and a leap second is one
second long.
-/

namespace HttpContract.Calendar

/-- The parts that a number of a format tells. -/
def NumberField.parts : NumberField → List Part
  | .year => [.year]
  | .century => [.century]
  | .yearOfCentury => [.yearOfCentury]
  | .weekYear => [.weekYear]
  | .weekYearOfCentury => [.weekYearOfCentury]
  | .quarter => [.quarter]
  | .month => [.month]
  | .day => [.day]
  | .weekFromSunday => [.weekFromSunday]
  | .weekFromMonday => [.weekFromMonday]
  | .week => [.week]
  | .weekdayFromSunday | .weekdayFromMonday => [.weekday]
  | .dayOfYear => [.dayOfYear]
  | .hour => [.half, .hourOfHalf]
  | .clockHour => [.hourOfHalf]
  | .minute => [.minute]
  | .second => [.second]
  | .nanosecond => [.nanosecond]
  | .timestamp => [.timestamp]

/-- The parts that an item of a format tells. -/
def Item.parts : Item → List Part
  | .literal _ | .blank _ | .zoneName => []
  | .number field _ => field.parts
  | .monthName _ => [.month]
  | .weekdayName _ => [.weekday]
  | .halfDay _ => [.half]
  | .fraction _ | .fractionDigits _ => [.nanosecond]
  | .offset _ => [.offset]
  | .timestampText =>
    [.year, .month, .day, .half, .hourOfHalf, .minute, .second, .nanosecond, .offset]

namespace Fields

theorem put?_eq_some {fields fields' : Fields} {part : Part} {value : Int} :
    fields.put? part value = some fields' ↔
      (part.range.1 ≤ value ∧ value ≤ part.range.2)
        ∧ (fields part = none ∨ fields part = some value)
        ∧ fields' = fun p => if p = part then some value else fields p := by
  unfold put?
  by_cases hrange : value < part.range.1 ∨ part.range.2 < value
  · rw [if_pos hrange]
    refine ⟨nofun, fun h => ?_⟩
    have := h.1
    omega
  · rw [if_neg hrange]
    have hin : part.range.1 ≤ value ∧ value ≤ part.range.2 := by omega
    cases hknown : fields part with
    | none =>
      simp only [true_or, true_and, hin, and_self]
      exact ⟨fun h => (Option.some.inj h).symm, fun h => congrArg some h.symm⟩
    | some known =>
      by_cases hsame : known = value
      · subst hsame
        have hput : (fun p => if p = part then some known else fields p) = fields := by
          funext p
          split
          · next hp => rw [hp, hknown]
          · rfl
        simp only [if_true, or_true, true_and, hin, and_self, hput]
        exact ⟨fun h => (Option.some.inj h).symm, fun h => congrArg some h.symm⟩
      · simp [hsame]

/-- Putting one of some parts keeps a property of fields. -/
def Keeps (P : Fields → Prop) (parts : List Part) : Prop :=
  ∀ part ∈ parts, ∀ (value : Int) (fields fields' : Fields),
    P fields → fields.put? part value = some fields' → P fields'

section Keeps

variable {P : Fields → Prop} {fields fields' : Fields}

theorem Keeps.mono {parts others : List Part} (h : Keeps P parts) (hsub : ∀ p ∈ others, p ∈ parts) :
    Keeps P others := fun part hpart => h part (hsub part hpart)

theorem putNumber?_keeps {field : NumberField} {value : Int} (hP : Keeps P field.parts)
    (h : P fields) (hput : fields.putNumber? field value = some fields') : P fields' := by
  cases field with
  | hour =>
    obtain ⟨half, hhalf, hrest⟩ := Option.bind_eq_some_iff.mp hput
    exact hP _ (by simp [NumberField.parts]) _ _ _ (hP _ (by simp [NumberField.parts]) _ _ _
      h hhalf) hrest
  | weekdayFromSunday =>
    rw [putNumber?] at hput
    split at hput
    · exact hP _ List.mem_cons_self _ _ _ h hput
    · cases hput
  | clockHour =>
    rw [putNumber?] at hput
    split at hput
    · exact hP _ List.mem_cons_self _ _ _ h hput
    · cases hput
  | _ => exact hP _ List.mem_cons_self _ _ _ h hput

theorem putAll?_keeps {values : List (Part × Int)} (hP : Keeps P (values.map (·.1)))
    (h : P fields) (hput : putAll? values fields = some fields') : P fields' := by
  induction values generalizing fields with
  | nil =>
    cases hput
    exact h
  | cons first rest ih =>
    obtain ⟨next, hnext, hrest⟩ := Option.bind_eq_some_iff.mp hput
    exact ih (hP.mono fun p hp => List.mem_cons_of_mem _ hp)
      (hP _ List.mem_cons_self _ _ _ h hnext) hrest

end Keeps

/-! ## Ranges -/

/-- Every part that is known lies in its range. -/
def InRange (fields : Fields) : Prop :=
  ∀ part value, fields part = some value → part.range.1 ≤ value ∧ value ≤ part.range.2

theorem inRange_empty : empty.InRange := nofun

theorem put?_inRange {fields fields' : Fields} {part : Part} {value : Int} (h : fields.InRange)
    (hput : fields.put? part value = some fields') : fields'.InRange := by
  intro p v hv
  obtain ⟨hvalue, -, rfl⟩ := put?_eq_some.mp hput
  simp only at hv
  split at hv
  · next hp =>
    cases hv
    exact hp ▸ hvalue
  · exact h p v hv

theorem inRange_keeps (parts : List Part) : Keeps InRange parts :=
  fun _ _ _ _ _ h hput => put?_inRange h hput

/-! ## Days and times -/

theorem DayRoute.day?_supported {route : DayRoute} {d : Day} (h : route.day? = some d) :
    d.isSupported = true := by
  cases route with
  | inMonth y m d => exact Day.ofDate?_supported h
  | inYear y place => exact Day.ofDayOfYear?_supported h
  | inWeekFrom y w d start => exact Day.ofWeekFrom?_supported h
  | inWeek y w d => exact Day.ofWeek?_supported h

/-- The day that some parts determine lies in the calendar, whatever they are. -/
theorem day_supported {fields : Fields} {d : Day} (h : fields.day = .ok d) :
    d.isSupported = true := by
  rw [day] at h
  obtain ⟨year?, -, h⟩ := bind_ok.mp h
  obtain ⟨weekYear?, -, h⟩ := bind_ok.mp h
  split at h
  · cases h
  · split at h
    · cases h
    · next hday =>
      split at h
      · cases h
        exact DayRoute.day?_supported hday
      · cases h

/-- The time of day lies in the day, a leap second being counted by its nanoseconds. -/
theorem time_bounds {fields : Fields} {s : Int} {n : Nat} (hrange : fields.InRange)
    (h : fields.time = .ok (s, n)) : 0 ≤ s ∧ s < Instant.perDay ∧ n < 2 * Instant.perSecond := by
  rw [time] at h
  split at h
  case h_2 => cases h
  case h_1 half hour minute hhalf hhour hminute =>
    have boundHalf := hrange _ _ hhalf
    have boundHour := hrange _ _ hhour
    have boundMinute := hrange _ _ hminute
    simp only [Part.range] at boundHalf boundHour boundMinute
    simp only [Instant.perDay, Instant.perSecond]
    cases hsecond : fields .second with
    | none =>
      cases hfraction : fields .nanosecond with
      | none =>
        simp only [hsecond, hfraction] at h
        cases h
        omega
      | some fraction =>
        simp only [hsecond, hfraction] at h
        cases h
    | some second =>
      have boundSecond := hrange _ _ hsecond
      simp only [Part.range] at boundSecond
      have boundFraction : ((fields .nanosecond).getD 0).toNat < 1000000000 := by
        cases hfraction : fields .nanosecond with
        | none => decide
        | some fraction =>
          have := hrange _ _ hfraction
          simp only [Part.range] at this
          change fraction.toNat < 1000000000
          omega
      simp only [hsecond] at h
      generalize ((fields .nanosecond).getD 0).toNat = nanoseconds at h boundFraction
      split at h
      · cases h
        simp only [Instant.perSecond]
        omega
      · cases h
        omega

/-! ## Instants -/

theorem combine_proper {d : Day} {time : Int × Nat} (hday : d.isSupported = true)
    (htime : 0 ≤ time.1 ∧ time.1 < Instant.perDay ∧ time.2 < 2 * Instant.perSecond) :
    (combine d time).Proper := by
  refine ⟨?_, htime.2.2⟩
  have hsame : (combine d time).day = d := by
    obtain ⟨n⟩ := d
    simp only [combine, Instant.day, Instant.perDay, Day.mk.injEq] at *
    omega
  rw [hsame]
  exact hday

theorem startOf_proper {d : Day} (h : d.isSupported = true) : (Instant.startOf d).Proper := by
  have hstart := @combine_proper d (0, 0) h (by decide)
  rwa [combine, Int.add_zero] at hstart

/-- The parts that a timestamp tells beside the second. -/
def timestampParts (t : Instant) : List (Part × Int) :=
  [(.year, t.day.year), (.dayOfYear, t.day.dayOfYear), (.half, t.secondOfDay / 3600 / 12),
    (.hourOfHalf, t.secondOfDay / 3600 % 12), (.minute, t.secondOfDay / 60 % 60)]

/-- The second is told before the other parts of a timestamp, unless it is a leap second. -/
theorem fromTimestamp?_eq (fields : Fields) (timestamp offset : Int) :
    fields.fromTimestamp? timestamp offset =
      (Instant.supported? ⟨timestamp + offset, 0⟩).bind fun t =>
        if fields .second = some 60 then
          if t.secondOfDay % 60 = 59 then putAll? (timestampParts t) fields
          else if t.secondOfDay % 60 = 0 then putAll? (timestampParts ⟨t.seconds - 1, 0⟩) fields
          else none
        else (fields.put? .second (t.secondOfDay % 60)).bind (putAll? (timestampParts t)) := by
  rw [fromTimestamp?]
  refine congrArg _ (funext fun t => ?_)
  split
  · rfl
  · simp only [Option.bind_eq_bind, Option.bind_map]
    rfl

theorem fromTimestamp?_inRange {fields completed : Fields} {timestamp offset : Int}
    (h : fields.InRange) (hread : fields.fromTimestamp? timestamp offset = some completed) :
    completed.InRange := by
  rw [fromTimestamp?_eq] at hread
  obtain ⟨t, -, hread⟩ := Option.bind_eq_some_iff.mp hread
  split at hread
  · split at hread
    · exact putAll?_keeps (inRange_keeps _) h hread
    · split at hread
      · exact putAll?_keeps (inRange_keeps _) h hread
      · cases hread
  · obtain ⟨next, hput, hrest⟩ := Option.bind_eq_some_iff.mp hread
    exact putAll?_keeps (inRange_keeps _) (put?_inRange h hput) hrest

theorem localInstant?_proper {fields : Fields} {offset : Int} {t : Instant}
    (hrange : fields.InRange) (h : fields.localInstant? offset = some t) : t.Proper := by
  rw [localInstant?] at h
  split at h
  · next d time hday htime =>
    simp only [Option.ite_none_right_eq_some] at h
    exact Option.some.inj h.2 ▸ combine_proper (day_supported hday) (time_bounds hrange htime)
  · cases h
  · cases h
  · simp only [Option.bind_eq_bind, Option.bind_eq_some_iff] at h
    obtain ⟨timestamp, -, completed, hcompleted, h⟩ := h
    split at h
    · next d time hday htime =>
      cases h
      exact combine_proper (day_supported hday)
        (time_bounds (fromTimestamp?_inRange hrange hcompleted) htime)
    · cases h

/-- An instant with an offset is one in its time, moved by it; a timestamp alone is universal. -/
theorem zonedInstant?_eq_some {fields : Fields} {t : Instant} :
    fields.zonedInstant? = some t ↔ ∃ offset u,
      (fields .offset = some offset
        ∨ fields .offset = none ∧ (fields .timestamp).isSome = true ∧ offset = 0)
      ∧ fields.localInstant? offset = some u
      ∧ (-Instant.perDay < offset ∧ offset < Instant.perDay)
      ∧ Instant.supported? { u with seconds := u.seconds - offset } = some t := by
  rw [zonedInstant?]
  cases hoffset : fields .offset <;> cases htimestamp : fields .timestamp
    <;> simp [Option.bind_eq_some_iff]

theorem zonedInstant?_proper {fields : Fields} {t : Instant} (hrange : fields.InRange)
    (h : fields.zonedInstant? = some t) : t.Proper := by
  obtain ⟨offset, u, -, hu, -, ht⟩ := zonedInstant?_eq_some.mp h
  exact Instant.supported?_proper ht (localInstant?_proper hrange hu).nanoseconds

theorem startOfDay?_proper {fields : Fields} {t : Instant} (h : fields.startOfDay? = some t) :
    t.Proper := by
  rw [startOfDay?] at h
  split at h
  · next d hday =>
    cases h
    exact startOf_proper (day_supported hday)
  · cases h

theorem instant?_proper {fields : Fields} {t : Instant} (hrange : fields.InRange)
    (h : fields.instant? = some t) : t.Proper := by
  simp only [instant?, Option.orElse_eq_orElse, Option.orElse_eq_or, Option.or_eq_some_iff] at h
  obtain h | ⟨-, h | ⟨-, h⟩⟩ := h
  · exact zonedInstant?_proper hrange h
  · exact localInstant?_proper hrange h
  · exact startOfDay?_proper h

end Fields

namespace Read

open Fields (Keeps InRange)

section Keeps

variable {P : Fields → Prop} {fields fields' : Fields} {cs rest : List Char}

theorem put?_keeps {part : Part} {r : Option (Int × List Char)} (hP : Keeps P [part])
    (h : P fields) (hput : put? part fields r = some (fields', rest)) : P fields' := by
  simp only [put?, Option.bind_eq_bind, Option.bind_eq_some_iff] at hput
  obtain ⟨⟨value, behind⟩, -, next, hnext, heq⟩ := hput
  cases heq
  exact hP _ List.mem_cons_self _ _ _ h hnext

theorem optionalFraction?_keeps (hP : Keeps P [.nanosecond]) (h : P fields)
    (hread : optionalFraction? fields cs = some (fields', rest)) : P fields' := by
  unfold optionalFraction? at hread
  split at hread
  · exact put?_keeps hP h hread
  · cases hread
    exact h

theorem optionalFixedFraction?_keeps {digits : Nat} (hP : Keeps P [.nanosecond]) (h : P fields)
    (hread : optionalFixedFraction? digits fields cs = some (fields', rest)) : P fields' := by
  unfold optionalFixedFraction? at hread
  split at hread
  · exact put?_keeps hP h hread
  · cases hread
    exact h

/-- A property that is kept by putting the parts of an item is kept by reading it. -/
theorem simpleItem?_keeps {item : Item} (hP : Keeps P item.parts) (h : P fields)
    (hread : simpleItem? fields cs item = some (fields', rest)) : P fields' := by
  cases item with
  | literal c =>
    simp only [simpleItem?] at hread
    split at hread
    · split at hread
      · cases hread
        exact h
      · cases hread
    · cases hread
  | blank c =>
    cases hread
    exact h
  | number field padding =>
    simp only [simpleItem?, Option.bind_eq_bind, Option.bind_eq_some_iff] at hread
    obtain ⟨⟨value, behind⟩, -, next, hnext, heq⟩ := hread
    cases heq
    exact Fields.putNumber?_keeps hP h hnext
  | monthName long => exact put?_keeps hP h hread
  | weekdayName long => exact put?_keeps hP h hread
  | halfDay upper => exact put?_keeps hP h hread
  | fraction digits =>
    cases digits with
    | none => exact optionalFraction?_keeps hP h hread
    | some digits => exact optionalFixedFraction?_keeps hP h hread
  | fractionDigits digits => exact put?_keeps hP h hread
  | zoneName =>
    cases hread
    exact h
  | offset style => cases style <;> exact put?_keeps hP h hread
  | timestampText => cases hread

theorem simpleItems?_keeps {items : List Item} (hP : Keeps P (items.flatMap Item.parts))
    (h : P fields) (hread : simpleItems? items fields cs = some (fields', rest)) : P fields' := by
  induction items generalizing fields cs with
  | nil =>
    cases hread
    exact h
  | cons item items ih =>
    simp only [simpleItems?, Option.bind_eq_bind, Option.bind_eq_some_iff] at hread
    obtain ⟨⟨next, behind⟩, hitem, hread⟩ := hread
    rw [List.flatMap_cons] at hP
    exact ih (hP.mono fun p hp => List.mem_append_right _ hp)
      (simpleItem?_keeps (hP.mono fun p hp => List.mem_append_left _ hp) h hitem) hread

theorem timestamp?_keeps (hP : Keeps P Item.timestampText.parts) (h : P fields)
    (hread : timestamp? fields cs = some (fields', rest)) : P fields' := by
  simp only [timestamp?, Option.bind_eq_bind, Option.bind_eq_some_iff] at hread
  obtain ⟨⟨next, behind⟩, hdate, mark, -, ⟨last, behind⟩, htime, hread⟩ := hread
  have hlast := simpleItems?_keeps (hP.mono (by decide))
    (simpleItems?_keeps (hP.mono (by decide)) h hdate) htime
  simp only at hread
  split at hread <;> exact put?_keeps (hP.mono (by decide)) hlast hread

theorem items?_keeps {items : List Item} (hP : Keeps P (items.flatMap Item.parts)) (h : P fields)
    (hread : items? items fields cs = some (fields', rest)) : P fields' := by
  induction items generalizing fields cs with
  | nil =>
    cases hread
    exact h
  | cons item items ih =>
    simp only [items?, Option.bind_eq_bind, Option.bind_eq_some_iff] at hread
    obtain ⟨⟨next, behind⟩, hitem, hread⟩ := hread
    rw [List.flatMap_cons] at hP
    refine ih (hP.mono fun p hp => List.mem_append_right _ hp) ?_ hread
    have hfirst : Keeps P item.parts := hP.mono fun p hp => List.mem_append_left _ hp
    rw [item?] at hitem
    split at hitem
    · next heq => exact timestamp?_keeps (heq ▸ hfirst) h hitem
    · exact simpleItem?_keeps hfirst h hitem

/-- What the text of a format tells has the properties that its items keep. -/
theorem fields?_keeps {items : List Item} (hP : Keeps P (items.flatMap Item.parts))
    (h : P Fields.empty) (hread : fields? items cs = some fields) : P fields := by
  rw [fields?] at hread
  split at hread
  · next hitems =>
    cases hread
    exact items?_keeps hP h hitems
  · cases hread

theorem fixedPart?_keeps {field : NumberField} {count : Nat}
    {behind : List Char → Option (List Char)} (hP : Keeps P field.parts) (h : P fields)
    (hread : fixedPart? field count behind fields cs = some (fields', rest)) : P fields' := by
  simp only [fixedPart?, Option.bind_eq_bind, Option.bind_eq_some_iff] at hread
  obtain ⟨⟨value, left⟩, -, next, hnext, left, -, heq⟩ := hread
  cases heq
  exact Fields.putNumber?_keeps hP h hnext

end Keeps

/-! ## What is read is proper -/

theorem fields?_inRange {items : List Item} {cs : List Char} {fields : Fields}
    (h : fields? items cs = some fields) : fields.InRange :=
  fields?_keeps (Fields.inRange_keeps _) Fields.inRange_empty h

theorem strictTimestamp?_inRange {cs : List Char} {fields : Fields}
    (h : strictTimestamp? cs = some fields) : fields.InRange := by
  simp only [strictTimestamp?, Option.bind_eq_bind, Option.bind_eq_some_iff] at h
  obtain ⟨⟨year, rest⟩, hyear, ⟨month, rest⟩, hmonth, ⟨day, rest⟩, hday, ⟨hour, rest⟩, hhour,
    ⟨minute, rest⟩, hminute, ⟨second, rest⟩, hsecond, ⟨fraction, rest⟩, hfraction,
    ⟨offset, rest⟩, hoffset, h⟩ := h
  have inYear := fixedPart?_keeps (Fields.inRange_keeps _) Fields.inRange_empty hyear
  have inMonth := fixedPart?_keeps (Fields.inRange_keeps _) inYear hmonth
  have inDay := fixedPart?_keeps (Fields.inRange_keeps _) inMonth hday
  have inHour := fixedPart?_keeps (Fields.inRange_keeps _) inDay hhour
  have inMinute := fixedPart?_keeps (Fields.inRange_keeps _) inHour hminute
  have inSecond := fixedPart?_keeps (Fields.inRange_keeps _) inMinute hsecond
  have inFraction := optionalFraction?_keeps (Fields.inRange_keeps _) inSecond hfraction
  have inOffset := put?_keeps (Fields.inRange_keeps _) inFraction hoffset
  simp only at h
  split at h
  · cases h
    exact inOffset
  · cases h

theorem formatted?_proper {items : List Item} {cs : List Char} {t : Instant}
    (h : formatted? items cs = some t) : t.Proper := by
  obtain ⟨fields, hfields, ht⟩ := Option.bind_eq_some_iff.mp h
  exact Fields.instant?_proper (fields?_inRange hfields) ht

theorem iso?_proper {cs : List Char} {t : Instant} (h : iso? cs = some t) : t.Proper := by
  simp only [iso?, Option.orElse_eq_orElse, Option.orElse_eq_or, Option.or_eq_some_iff] at h
  obtain h | ⟨-, h | ⟨-, h⟩⟩ := h
  · obtain ⟨fields, hfields, ht⟩ := Option.bind_eq_some_iff.mp h
    exact Fields.zonedInstant?_proper (strictTimestamp?_inRange hfields) ht
  · obtain ⟨items, -, hitems⟩ := List.exists_of_findSome?_eq_some h
    obtain ⟨fields, hfields, ht⟩ := Option.bind_eq_some_iff.mp hitems
    exact Fields.localInstant?_proper (fields?_inRange hfields) ht
  · obtain ⟨fields, hfields, ht⟩ := Option.bind_eq_some_iff.mp h
    exact Fields.startOfDay?_proper ht

end Read

end HttpContract.Calendar
