import HttpContract.Proofs.Calendar.Reread

/-!
# Calendar.Legible — formats whose texts are read back

The items that a format means are proper (`Item.ofFormat?_proper`). In a legible format
(`Item.Legible`) the text of each item ends where the next one begins, whatever the instant, and all
fractions are cut alike, because an exact fraction and a cut one contradict each other. The text of
an instant in such a format is read as a whole (`Read.exists_render?`), and if the format tells a
day or a timestamp it is read as an instant (`Read.formatted?_render`).
-/

namespace HttpContract.Calendar

open Json.Number (AllDigits)

namespace Item

/-! ## The items of a format -/

instance : DecidablePred Proper
  | .literal _ => inferInstanceAs (Decidable (_ = _))
  | .blank _ => inferInstanceAs (Decidable (_ = _))
  | .fraction (some _) => inferInstanceAs (Decidable (_ ∨ _))
  | .fractionDigits _ => inferInstanceAs (Decidable (_ ∨ _))
  | .number _ _ | .monthName _ | .weekdayName _ | .halfDay _ | .fraction none | .zoneName
  | .offset _ | .timestampText => inferInstanceAs (Decidable True)

theorem itemsOf?_proper {c : Char} {items : List Item} (h : itemsOf? c = some items) :
    ∀ item ∈ items, item.Proper := by
  unfold itemsOf? at h
  split at h <;> cases h <;> decide

theorem fractionLength?_proper {c : Char} {digits : Nat} (h : fractionLength? c = some digits) :
    digits = 3 ∨ digits = 6 ∨ digits = 9 := by
  unfold fractionLength? at h
  split at h <;> cases h <;> decide

theorem readDirective_proper {cs rest : List Char} {items : List Item}
    (h : readDirective cs = some (items, rest)) : ∀ item ∈ items, item.Proper := by
  have hone {item : Item} (hitem : item.Proper) : ∀ other ∈ [item], other.Proper := by
    rintro _ hother
    exact List.mem_singleton.mp hother ▸ hitem
  unfold readDirective at h
  split at h
  · cases h
  · split at h
    · cases h
      exact hone trivial
    · obtain ⟨n, hn, heq⟩ := Option.map_eq_some_iff.mp h
      cases heq
      exact hone (fractionLength?_proper hn)
    · cases h
  · split at h <;> cases h <;> exact hone trivial
  · split at h <;> cases h
    exact hone trivial
  · split at h
    · obtain ⟨n, -, heq⟩ := Option.map_eq_some_iff.mp h
      cases heq
      exact hone trivial
    · cases h
    · split at h
      · cases h
        exact hone trivial
      · next hitems =>
        cases h
        exact itemsOf?_proper hitems
      · split at h
        · next hlength =>
          cases h
          exact hone (fractionLength?_proper hlength)
        · cases h

theorem ofChar_proper (c : Char) : (ofChar c).Proper := by
  rw [ofChar]
  split
  · next h => exact h
  · next h => exact (Bool.not_eq_true _).mp h

theorem readAll_proper {steps : Nat} {cs : List Char} {items : List Item}
    (h : readAll steps cs = some items) : ∀ item ∈ items, item.Proper := by
  fun_induction readAll steps cs generalizing items with
  | case1 => cases h
  | case2 =>
    cases h
    nofun
  | case3 steps rest ih =>
    simp only [Option.bind_eq_bind, Option.bind_eq_some_iff, Option.some.injEq] at h
    obtain ⟨⟨first, behind⟩, hfirst, more, hmore, rfl⟩ := h
    intro item hitem
    rcases List.mem_append.mp hitem with hitem | hitem
    · exact readDirective_proper hfirst item hitem
    · exact ih behind hmore item hitem
  | case4 steps c rest hc ih =>
    simp only [Option.bind_eq_bind, Option.bind_eq_some_iff, Option.some.injEq] at h
    obtain ⟨more, hmore, rfl⟩ := h
    exact List.forall_mem_cons.mpr ⟨ofChar_proper _, ih hmore⟩

/-- The items that a format means are proper. -/
theorem ofFormat?_proper {format : List Char} {items : List Item}
    (h : ofFormat? format = some items) : ∀ item ∈ items, item.Proper := readAll_proper h

/-! ## Legible formats -/

/-- A text of some items may start with a digit. -/
def startsDigit : List Item → Bool
  | .literal c :: _ => c.isDigit
  | .number _ _ :: _ => true
  | .fraction none :: rest => startsDigit rest
  | .fractionDigits _ :: _ => true
  | .timestampText :: _ => true
  | _ => false

/-- A text of some items may start with a point, blanks apart. -/
def startsPoint : List Item → Bool
  | .literal c :: _ => c = '.'
  | .blank _ :: rest => startsPoint rest
  | .fraction _ :: _ => true
  | _ => false

/-- No text of some items goes on where a word ends. -/
def startsBlank : List Item → Bool
  | [] => true
  | .blank _ :: _ => true
  | _ => false

/-- The text of an item ends where those of some items begin. -/
def endsBeforeAll (rest : List Item) : Item → Bool
  | .number field padding => field.isFixed padding || !startsDigit rest
  | .fraction none => !startsDigit rest && !startsPoint rest
  | .zoneName => startsBlank rest
  | .offset style => style = .plain || style = .colon
  | _ => true

/-- The text of each item ends where the next one begins. -/
def areApart : List Item → Bool
  | [] => true
  | item :: rest => endsBeforeAll rest item && areApart rest

/-- The items of a format can be told apart in every text, and all its fractions are cut alike. -/
def Legible (items : List Item) : Prop :=
  areApart items = true
    ∧ ∀ d ∈ items.filterMap precision?, ∀ e ∈ items.filterMap precision?, d = e

instance (items : List Item) : Decidable (Legible items) := inferInstanceAs (Decidable (_ ∧ _))

end Item

namespace Read

section Legible

variable {t : Instant}

theorem render?_cons {item : Item} {rest : List Item} {text : List Char}
    (h : t.render? (item :: rest) = some text) : ∃ first more, t.itemText? item = some first
      ∧ t.render? rest = some more ∧ text = first ++ more := by
  simp only [Instant.render?, Option.bind_eq_bind, Option.bind_eq_some_iff, Option.some.injEq] at h
  obtain ⟨first, hfirst, more, hmore, rfl⟩ := h
  exact ⟨first, more, hfirst, hmore, rfl⟩

theorem StartsMark.noDigit {first : List Char} (h : StartsMark first) (more : List Char) :
    NoDigit (first ++ more) := by
  obtain ⟨c, rest, rfl, -, hdigit, -⟩ := h.spec
  rintro _ ⟨⟩
  exact hdigit

theorem noDigit_render {items : List Item} (hproper : ∀ item ∈ items, item.Proper)
    (h : Item.startsDigit items = false) {text : List Char} (htext : t.render? items = some text) :
    NoDigit text := by
  induction items generalizing text with
  | nil =>
    cases htext
    nofun
  | cons item rest ih =>
    obtain ⟨first, more, hfirst, hmore, rfl⟩ := render?_cons htext
    by_cases hmark : item.startsMark = true
    · exact (startsMark_itemText hmark hfirst).noDigit more
    · cases item with
      | literal c =>
        cases hfirst
        rintro _ ⟨⟩
        exact h
      | blank c =>
        cases hfirst
        rintro _ ⟨⟩
        have hblank : Unicode.isWhiteSpace c = true := hproper _ List.mem_cons_self
        by_contra hdigit
        rw [isWhiteSpace_of_isDigit ((Bool.not_eq_false _).mp hdigit)] at hblank
        cases hblank
      | fraction digits =>
        cases digits with
        | none =>
          cases hfirst
          obtain ⟨-, hnone⟩ | ⟨digits, -, hsome, -⟩ := t.shortFraction_cases
          · rw [hnone]
            exact ih (fun item hitem => hproper item (List.mem_cons_of_mem _ hitem)) h hmore
          · rw [hsome]
            rintro _ ⟨⟩
            decide
        | some digits =>
          cases hfirst
          rintro _ ⟨⟩
          decide
      | number | fractionDigits | timestampText => cases h
      | _ => exact absurd rfl hmark

theorem noPoint_of_head {text : List Char} (h : ∀ c ∈ text.head?, c ≠ '.')
    (hsolid : Solid text) : NoPoint text := by
  have hskip : skipBlanks text = text := skipBlanks_of_head fun c hc => by
    cases text with
    | nil => cases hsolid
    | cons d more =>
      cases hc
      exact (Bool.not_eq_true' _).mp hsolid
  rwa [NoPoint, hskip]

theorem StartsDigit.noPoint {first : List Char} (h : StartsDigit first) (more : List Char) :
    NoPoint (first ++ more) := by
  refine noPoint_of_head ?_ (h.append more).solid
  rintro c hc rfl
  cases first with
  | nil => cases h
  | cons d rest =>
    cases hc
    cases h

theorem noPoint_render (ht : t.Plain) {items : List Item} (hproper : ∀ item ∈ items, item.Proper)
    (hpos : t.Unsigned (items.flatMap Item.parts)) (h : Item.startsPoint items = false)
    {text : List Char} (htext : t.render? items = some text) :
    NoPoint text := by
  induction items generalizing text with
  | nil =>
    cases htext
    nofun
  | cons item rest ih =>
    obtain ⟨first, more, hfirst, hmore, rfl⟩ := render?_cons htext
    by_cases hmark : item.startsMark = true
    · obtain ⟨c, behind, rfl, hsolid, -, hpoint⟩ := (startsMark_itemText hmark hfirst).spec
      exact noPoint_of_head (by rintro _ ⟨⟩; exact hpoint) (solid_cons hsolid _)
    · cases item with
      | literal c =>
        cases hfirst
        exact noPoint_of_head (by rintro _ ⟨⟩; exact of_decide_eq_false h)
          (solid_cons (hproper _ List.mem_cons_self) more)
      | blank c =>
        cases hfirst
        have hblank : Unicode.isWhiteSpace c = true := hproper _ List.mem_cons_self
        have hskip : skipBlanks (c :: more) = skipBlanks more := List.dropWhile_cons_of_pos hblank
        rw [NoPoint, List.singleton_append, hskip]
        exact ih (fun item hitem => hproper item (List.mem_cons_of_mem _ hitem))
          (hpos.mono fun p hp _ => List.mem_append_right _ hp) h hmore
      | number field padding =>
        cases hfirst
        have hfield : t.Unsigned field.parts := hpos.mono fun p hp _ => List.mem_append_left _ hp
        obtain ⟨blanks, digits, heq, hblanks, hdigits, hne, -⟩ :=
          ht.exists_numberText padding hfield
        rw [heq, List.append_assoc, NoPoint, skipBlanks_append hblanks]
        exact (startsDigit_of_allDigits hdigits hne).noPoint more
      | fractionDigits digits =>
        cases hfirst
        have hitem : digits = 3 ∨ digits = 6 ∨ digits = 9 := hproper _ List.mem_cons_self
        obtain ⟨hdigits, hlength, -⟩ := t.fractionText_spec hitem
        have hne : t.fractionText digits ≠ [] := by
          rw [← List.length_pos_iff]
          omega
        exact (startsDigit_of_allDigits hdigits hne).noPoint more
      | timestampText => exact (startsDigit_timestampText ht hfirst).noPoint more
      | fraction => cases h
      | _ => exact absurd rfl hmark

/-- Items whose texts are apart are so at every instant. -/
theorem endsBefore_render (ht : t.Plain) {item : Item} {rest : List Item}
    (hproper : ∀ item ∈ rest, item.Proper) (hpos : t.Unsigned (rest.flatMap Item.parts))
    (h : item.endsBeforeAll rest = true) {behind : List Char}
    (hbehind : t.render? rest = some behind) : item.EndsBefore behind := by
  cases item with
  | number field padding =>
    simp only [Item.endsBeforeAll, Bool.or_eq_true, Bool.not_eq_true'] at h
    exact h.imp_right fun hrest => noDigit_render hproper hrest hbehind
  | fraction digits =>
    cases digits with
    | none =>
      simp only [Item.endsBeforeAll, Bool.and_eq_true, Bool.not_eq_true'] at h
      exact ⟨noDigit_render hproper h.1 hbehind, noPoint_render ht hproper hpos h.2 hbehind⟩
    | some digits => trivial
  | zoneName =>
    cases rest with
    | nil =>
      cases hbehind
      nofun
    | cons next rest =>
      obtain ⟨first, more, hfirst, -, rfl⟩ := render?_cons hbehind
      cases next with
      | blank c =>
        cases hfirst
        rintro _ ⟨⟩
        exact hproper _ List.mem_cons_self
      | _ => cases h
  | offset style =>
    simp only [Item.endsBeforeAll, Bool.or_eq_true, decide_eq_true_eq] at h
    exact h
  | _ => trivial

/-- The text of each item but the offset of any length. -/
theorem exists_itemText? (t : Instant) {item : Item} {rest : List Item}
    (h : item.endsBeforeAll rest = true) : ∃ first, t.itemText? item = some first := by
  cases item with
  | offset style =>
    simp only [Item.endsBeforeAll, Bool.or_eq_true, decide_eq_true_eq] at h
    rcases h with rfl | rfl <;> exact ⟨_, rfl⟩
  | fraction digits => cases digits <;> exact ⟨_, rfl⟩
  | _ => exact ⟨_, rfl⟩

/-- The text of items that are apart is read back as a whole. -/
theorem exists_render? (ht : t.Plain) {fraction : Nat} (hfraction : fraction < Instant.perSecond)
    {items : List Item} (hproper : ∀ item ∈ items, item.Proper)
    (hexact : ∀ item ∈ items, ∀ digits ∈ item.precision?, fraction = t.cut digits)
    (hpos : t.Unsigned (items.flatMap Item.parts)) (h : Item.areApart items = true) :
    ∃ text, t.render? items = some text
      ∧ ∀ parts cs, Unblanked cs text → ∃ others,
        items? items (Fields.told (t.part fraction) parts) cs
            = some (Fields.told (t.part fraction) others, [])
          ∧ ∀ p, p ≠ .nanosecond → (p ∈ others ↔ p ∈ items.flatMap Item.parts ∨ p ∈ parts) := by
  induction items with
  | nil =>
    refine ⟨[], rfl, fun parts cs hcs => ⟨parts, ?_, by simp⟩⟩
    rcases hcs with rfl | rfl <;> rfl
  | cons item rest ih =>
    simp only [Item.areApart, Bool.and_eq_true] at h
    have hposItem : t.Unsigned item.parts := hpos.mono fun p hp _ => List.mem_append_left _ hp
    have hposRest : t.Unsigned (rest.flatMap Item.parts) :=
      hpos.mono fun p hp _ => List.mem_append_right _ hp
    have hrest : ∀ item ∈ rest, item.Proper := fun item hitem =>
      hproper item (List.mem_cons_of_mem _ hitem)
    obtain ⟨behind, hbehind, hread⟩ := ih hrest
      (fun item hitem => hexact item (List.mem_cons_of_mem _ hitem)) hposRest h.2
    obtain ⟨first, hfirst⟩ := exists_itemText? t h.1
    refine ⟨first ++ behind, by simp [Instant.render?, hfirst, hbehind], fun parts cs hcs => ?_⟩
    have hends := endsBefore_render ht hrest hposRest h.1 hbehind
    obtain ⟨others, left, hitem, hleft, hothers⟩ := item?_itemText ht hfraction parts
      (hproper item List.mem_cons_self) (hexact item List.mem_cons_self)
      hposItem hfirst hends hcs
    obtain ⟨final, hfinal, hknown⟩ := hread others left hleft
    refine ⟨final, ?_, fun p hp => ?_⟩
    · simp only [items?, hitem, Option.bind_eq_bind, Option.bind_some, hfinal]
    · rw [hknown p hp, hothers p hp, List.flatMap_cons, List.mem_append, or_assoc, or_left_comm]

/-- The fractions of a legible format tell the same nanoseconds of an instant. -/
theorem exists_fraction (t : Instant) {items : List Item} (h : Item.Legible items) :
    ∃ fraction < Instant.perSecond, ∀ item ∈ items, ∀ d ∈ item.precision?, fraction = t.cut d := by
  by_cases hnone : ∃ d, d ∈ items.filterMap Item.precision?
  · obtain ⟨d, hd⟩ := hnone
    refine ⟨t.cut d, t.cut_lt d, fun item hitem e he => ?_⟩
    rw [h.2 d hd e (List.mem_filterMap.mpr ⟨item, hitem, he⟩)]
  · refine ⟨0, by decide, fun item hitem d hd => ?_⟩
    exact absurd ⟨d, List.mem_filterMap.mpr ⟨item, hitem, hd⟩⟩ hnone

/-- A text that is written in a legible format is read as an instant, if the format tells enough
for that. -/
theorem formatted?_render {items : List Item} (hproper : ∀ item ∈ items, item.Proper)
    (hlegible : Item.Legible items) (ht : Fields.Covers (items.flatMap Item.parts) t)
    (htells : Fields.TellsDay (items.flatMap Item.parts)
      ∨ .timestamp ∈ items.flatMap Item.parts) :
    ∃ text, t.render? items = some text ∧ (formatted? items text).isSome = true := by
  obtain ⟨fraction, hfraction, hexact⟩ := exists_fraction t hlegible
  obtain ⟨text, htext, hread⟩ :=
    exists_render? ht.plain hfraction hproper hexact ht.unsigned hlegible.1
  obtain ⟨others, hitems, hothers⟩ := hread [] text (.refl text)
  have hsame : ∀ p, p ≠ .nanosecond → (p ∈ others ↔ p ∈ items.flatMap Item.parts) := fun p hp => by
    simpa using hothers p hp
  rw [Fields.told_nil] at hitems
  have hfields : fields? items text = some (Fields.told (t.part fraction) others) := by
    rw [fields?, hitems]
  refine ⟨text, htext, ?_⟩
  rw [formatted?, hfields, Option.bind_some]
  refine (ht.congr hsame).instant?_told fraction hfraction (htells.imp ?_ ?_)
  · exact (Fields.tellsDay_congr hsame).mpr
  · exact (hsame .timestamp (by decide)).mpr

end Legible

end Read

end HttpContract.Calendar
