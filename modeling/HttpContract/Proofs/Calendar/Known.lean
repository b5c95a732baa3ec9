import HttpContract.Proofs.Calendar.Told

/-!
# Calendar.Known — the parts that a text tells

Every text that has the form of a format tells the parts of the format's items, up to a fraction,
which may be missing (`Read.isSome_fields?_iff`). So a text is read as an instant only in a format
that tells a day or a timestamp (`Read.tells_of_formatted?`).
-/

namespace HttpContract.Calendar

namespace Fields

variable {fields fields' : Fields}

theorem put?_tells {p : Part} {v : Int} (h : fields.put? p v = some fields') :
    (fields' p).isSome = true := by
  obtain ⟨-, -, rfl⟩ := put?_eq_some.mp h
  simp

theorem isSome_keeps (p : Part) (parts : List Part) :
    Keeps (fun fields => (fields p).isSome = true) parts := by
  intro q _ v fields fields' h hput
  obtain ⟨-, -, rfl⟩ := put?_eq_some.mp hput
  simp only
  split
  · rfl
  · exact h

theorem none_keeps {p : Part} {parts : List Part} (hp : p ∉ parts) :
    Keeps (fun fields => fields p = none) parts := by
  intro q hq v fields fields' h hput
  obtain ⟨-, -, rfl⟩ := put?_eq_some.mp hput
  have hother : p ≠ q := fun heq => hp (heq ▸ hq)
  exact (if_neg hother).trans h

theorem putNumber?_tells {field : NumberField} {p : Part} (hp : p ∈ field.parts) {v : Int}
    (h : fields.putNumber? field v = some fields') : (fields' p).isSome = true := by
  cases field with
  | hour =>
    obtain ⟨half, hhalf, hrest⟩ := Option.bind_eq_some_iff.mp h
    simp only [NumberField.parts, List.mem_cons, List.not_mem_nil, or_false] at hp
    rcases hp with rfl | rfl
    · exact isSome_keeps _ [.hourOfHalf] _ List.mem_cons_self _ _ _ (put?_tells hhalf) hrest
    · exact put?_tells hrest
  | weekdayFromSunday =>
    rw [putNumber?] at h
    split at h
    · exact List.mem_singleton.mp hp ▸ put?_tells h
    · cases h
  | clockHour =>
    rw [putNumber?] at h
    split at h
    · exact List.mem_singleton.mp hp ▸ put?_tells h
    · cases h
  | _ => exact List.mem_singleton.mp hp ▸ put?_tells h

end Fields

namespace Read

variable {fields fields' : Fields} {cs rest : List Char} {p : Part}

theorem put?_tells {r : Option (Int × List Char)} (h : put? p fields r = some (fields', rest)) :
    (fields' p).isSome = true := by
  simp only [put?, Option.bind_eq_bind, Option.bind_eq_some_iff] at h
  obtain ⟨⟨value, behind⟩, -, next, hnext, heq⟩ := h
  cases heq
  exact Fields.put?_tells hnext

/-- An item that was read tells its parts, apart from a fraction that may be missing. -/
theorem simpleItem?_tells {item : Item} (hp : p ∈ item.parts) (hne : p ≠ .nanosecond)
    (h : simpleItem? fields cs item = some (fields', rest)) : (fields' p).isSome = true := by
  have hone {q : Part} (hq : p ∈ [q]) (hread : (fields' q).isSome = true) :
      (fields' p).isSome = true := List.mem_singleton.mp hq ▸ hread
  cases item with
  | number field padding =>
    simp only [simpleItem?, Option.bind_eq_bind, Option.bind_eq_some_iff] at h
    obtain ⟨⟨value, behind⟩, -, next, hnext, heq⟩ := h
    cases heq
    exact Fields.putNumber?_tells hp hnext
  | monthName long => exact hone hp (put?_tells h)
  | weekdayName long => exact hone hp (put?_tells h)
  | halfDay upper => exact hone hp (put?_tells h)
  | fraction digits => exact absurd (List.mem_singleton.mp hp) hne
  | fractionDigits digits => exact absurd (List.mem_singleton.mp hp) hne
  | offset style => cases style <;> exact hone hp (put?_tells h)
  | timestampText => cases h
  | _ => exact absurd hp List.not_mem_nil

theorem simpleItems?_tells {items : List Item} (hp : p ∈ items.flatMap Item.parts)
    (hne : p ≠ .nanosecond) (h : simpleItems? items fields cs = some (fields', rest)) :
    (fields' p).isSome = true := by
  induction items generalizing fields cs with
  | nil => exact absurd hp List.not_mem_nil
  | cons item items ih =>
    simp only [simpleItems?, Option.bind_eq_bind, Option.bind_eq_some_iff] at h
    obtain ⟨⟨next, behind⟩, hitem, h⟩ := h
    rw [List.flatMap_cons, List.mem_append] at hp
    rcases hp with hp | hp
    · exact simpleItems?_keeps (Fields.isSome_keeps p _) (simpleItem?_tells hp hne hitem) h
    · exact ih hp h

theorem timestamp?_tells (hp : p ∈ Item.timestampText.parts) (hne : p ≠ .nanosecond)
    (h : timestamp? fields cs = some (fields', rest)) : (fields' p).isSome = true := by
  simp only [timestamp?, Option.bind_eq_bind, Option.bind_eq_some_iff] at h
  obtain ⟨⟨next, behind⟩, hdate, mark, -, ⟨last, left⟩, htime, h⟩ := h
  simp only at h
  have hoffset : (fields' .offset).isSome = true ∧
      ((last p).isSome = true → (fields' p).isSome = true) := by
    split at h <;>
      exact ⟨put?_tells h, fun hlast => put?_keeps (Fields.isSome_keeps p _) hlast h⟩
  have hparts : p ∈ looseDate.flatMap Item.parts ∨ p ∈ looseTime.flatMap Item.parts ∨
      p = .offset := by
    revert hp
    cases p <;> decide
  rcases hparts with hp | hp | rfl
  · exact hoffset.2 (simpleItems?_keeps (Fields.isSome_keeps p _)
      (simpleItems?_tells hp hne hdate) htime)
  · exact hoffset.2 (simpleItems?_tells hp hne htime)
  · exact hoffset.1

theorem items?_tells {items : List Item} (hp : p ∈ items.flatMap Item.parts)
    (hne : p ≠ .nanosecond) (h : items? items fields cs = some (fields', rest)) :
    (fields' p).isSome = true := by
  induction items generalizing fields cs with
  | nil => exact absurd hp List.not_mem_nil
  | cons item items ih =>
    simp only [items?, Option.bind_eq_bind, Option.bind_eq_some_iff] at h
    obtain ⟨⟨next, behind⟩, hitem, h⟩ := h
    rw [List.flatMap_cons, List.mem_append] at hp
    rcases hp with hp | hp
    · refine items?_keeps (Fields.isSome_keeps p _) ?_ h
      rw [item?] at hitem
      split at hitem
      · next heq => exact timestamp?_tells (heq ▸ hp) hne hitem
      · exact simpleItem?_tells hp hne hitem
    · exact ih hp h

/-- The parts that a text tells are those of its format, up to a fraction. -/
theorem isSome_fields?_iff {items : List Item} (h : fields? items cs = some fields)
    (hne : p ≠ .nanosecond) : (fields p).isSome = true ↔ p ∈ items.flatMap Item.parts := by
  refine ⟨fun hsome => ?_, fun hp => ?_⟩
  · by_contra hp
    rw [fields?_keeps (Fields.none_keeps hp) rfl h] at hsome
    cases hsome
  · rw [fields?] at h
    split at h
    · next hitems =>
      cases h
      exact items?_tells hp hne hitems
    · cases h

/-- A text is read as an instant only in a format that tells a day or a timestamp. -/
theorem tells_of_formatted? {items : List Item} {t : Instant} (h : formatted? items cs = some t) :
    Fields.TellsDay (items.flatMap Item.parts) ∨ .timestamp ∈ items.flatMap Item.parts := by
  obtain ⟨fields, hfields, ht⟩ := Option.bind_eq_some_iff.mp h
  exact Fields.tells_of_instant? (fun _ hp => isSome_fields?_iff hfields hp) ht

end Read

end HttpContract.Calendar
