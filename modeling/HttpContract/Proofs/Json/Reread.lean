import HttpContract.Json.Printer
import HttpContract.Proofs.Json.Numeral

/-!
# Json — reading the text of a value

The text of a value is read back as the value (`parse?_text`), if no object in it has a field twice
and it is legible: its containers are not nested too deep and its numbers read back, as whole
numbers always do.
-/

namespace HttpContract.Json

open Script (Delimited hexDigitValue?_hexDigit)

/-! ## Strings -/

/-- Reading a string passes over what a character is written as and takes the character. -/
theorem parseStringFrom_escapeChar (fuel : Nat) (done : List Char) (c : Char) (cs : List Char) :
    parseStringFrom (fuel + 1) done (escapeChar c ++ cs) = parseStringFrom fuel (c :: done) cs := by
  unfold escapeChar
  split
  -- the characters that have a letter behind a backslash
  iterate 7 rfl
  rename_i hquote hslash _ _ _ _ _
  split
  · rename_i hcontrol
    have h0 : hexDigitValue? '0' = some 0 := rfl
    have h1 := hexDigitValue?_hexDigit (c.toNat / 16) (by omega)
    have h2 := hexDigitValue?_hexDigit (c.toNat % 16) (by omega)
    have hcode : ((0 * 16 + 0) * 16 + c.toNat / 16) * 16 + c.toNat % 16 = c.toNat := by omega
    have hescape : parseUnicodeEscape
        ('0' :: '0' :: hexDigit (c.toNat / 16) :: hexDigit (c.toNat % 16) :: cs)
        = some (c, cs) := by
      simp only [parseUnicodeEscape, parseHex4, h0, h1, h2, Option.bind_eq_bind, Option.bind_some,
        hcode]
      rw [if_pos (by omega), Char.ofNat_toNat]
    simp [parseStringFrom, hescape]
  · rename_i hcontrol
    simp only [List.cons_append, List.nil_append, parseStringFrom]
    rw [if_neg hquote, if_neg hslash, if_neg hcontrol]

theorem parseStringFrom_quoted {cs : List Char} {fuel : Nat} (h : cs.length < fuel)
    (done rest : List Char) :
    parseStringFrom fuel done (cs.flatMap escapeChar ++ '"' :: rest)
      = some (String.ofList (done.reverse ++ cs), rest) := by
  induction cs generalizing fuel done with
  | nil =>
    obtain ⟨fuel, rfl⟩ := Nat.exists_eq_add_of_lt h
    simp [parseStringFrom]
  | cons c cs ih =>
    obtain ⟨fuel, rfl⟩ := Nat.exists_eq_succ_of_ne_zero (Nat.ne_zero_of_lt h)
    rw [List.flatMap_cons, List.append_assoc, parseStringFrom_escapeChar,
      ih (by simpa using h)]
    simp

theorem length_le_escaped (cs : List Char) : cs.length ≤ (cs.flatMap escapeChar).length := by
  induction cs with
  | nil => simp
  | cons c cs ih =>
    have hc : 1 ≤ (escapeChar c).length := by
      unfold escapeChar
      split <;> first | simp | (split <;> simp)
    simp only [List.flatMap_cons, List.length_append, List.length_cons]
    omega

/-- A string is read up to its closing quote. -/
theorem parseString_quoted (s : String) (rest : List Char) :
    parseString (s.toList.flatMap escapeChar ++ '"' :: rest) = some (s, rest) := by
  have hlength := length_le_escaped s.toList
  rw [parseString, parseStringFrom_quoted (by simp only [List.length_append]; omega)]
  simp

/-! ## Values -/

theorem skipBlanks_cons {c : Char} (h : isBlank c = false) (cs : List Char) :
    skipBlanks (c :: cs) = c :: cs := by
  simp [skipBlanks, h]

/-- The characters that start a value other than a number, and blanks. -/
def otherStarts : List Char := ['"', '[', '\x7b', 'n', 't', 'f', ' ', '\n', '\t', '\r']

theorem not_otherStarts {c : Char} (h : c = '-' ∨ c.isDigit = true) : c ∉ otherStarts := by
  rcases h with rfl | h
  · decide
  · intro hc
    have hall : otherStarts.all (fun c => !c.isDigit) = true := by decide
    simpa [h] using List.all_eq_true.mp hall c hc

/-- A sign or a digit starts a number. -/
theorem parseValue_number {c : Char} (h : c = '-' ∨ c.isDigit = true) (fuel depth : Nat)
    (cs : List Char) : parseValue (fuel + 1) depth (c :: cs) = parseNumber (c :: cs) := by
  have hc := not_otherStarts h
  simp only [otherStarts, List.mem_cons, not_or] at hc
  obtain ⟨hquote, hbracket, hbrace, hn, ht, hf, hblank, hline, htab, hreturn, -⟩ := hc
  have hblank : isBlank c = false := by simp [isBlank, hblank, hline, htab, hreturn]
  rw [parseValue, skipBlanks_cons hblank]
  split <;> simp_all

/-- A text starts with no blank and does not close an array. -/
theorem exists_chars (v : Json) :
    ∃ c cs, v.chars = c :: cs ∧ isBlank c = false ∧ c ≠ ']' := by
  cases v with
  | null => exact ⟨_, _, rfl, rfl, by decide⟩
  | bool b => cases b <;> exact ⟨_, _, rfl, rfl, by decide⟩
  | number n =>
    obtain ⟨c, cs, htext, hc⟩ := exists_text n
    refine ⟨c, cs, htext, ?_, ?_⟩
    · have hc := not_otherStarts hc
      simp only [otherStarts, List.mem_cons, not_or] at hc
      simp [isBlank, hc]
    · rintro rfl
      exact absurd hc (by decide)
  | string s => exact ⟨_, _, rfl, rfl, by decide⟩
  | array items => cases items <;> exact ⟨_, _, rfl, rfl, by decide⟩
  | object fields => cases fields <;> exact ⟨_, _, rfl, rfl, by decide⟩

/-- The text of a value is read up to what stands behind it, in containers that may be nested to a
depth. -/
def Reads (depth : Nat) (v : Json) : Prop :=
  ∀ fuel rest, v.chars.length < fuel → Delimited rest →
    parseValue fuel depth (v.chars ++ rest) = some (v, rest)

theorem delimited_afterItem (items : List Json) (rest : List Char) :
    Delimited (charsAfterItem items ++ rest) := by
  cases items <;> exact .cons (by decide)

theorem delimited_afterField (fields : List (String × Json)) (rest : List Char) :
    Delimited (charsAfterField fields ++ rest) := by
  cases fields <;> exact .cons (by decide)

theorem parseItems_chars {depth : Nat} (v : Json) {items : List Json}
    (h : ∀ w ∈ v :: items, Reads depth w) (fuel : Nat) (done : List Json) (rest : List Char)
    (hfuel : (v.chars ++ charsAfterItem items).length < fuel) :
    parseItems fuel depth done (v.chars ++ (charsAfterItem items ++ rest))
      = some (.array (done.reverse ++ v :: items), rest) := by
  induction items generalizing v fuel done with
  | nil =>
    obtain ⟨fuel, rfl⟩ := Nat.exists_eq_succ_of_ne_zero (Nat.ne_zero_of_lt hfuel)
    have hv := h v (by simp) fuel (charsAfterItem [] ++ rest)
      (by simp only [List.length_append, charsAfterItem, List.length_cons] at hfuel; omega)
      (delimited_afterItem [] rest)
    rw [parseItems, hv]
    simp [charsAfterItem, skipBlanks_cons (c := ']') rfl]
  | cons w items ih =>
    obtain ⟨fuel, rfl⟩ := Nat.exists_eq_succ_of_ne_zero (Nat.ne_zero_of_lt hfuel)
    have hv := h v (by simp) fuel (charsAfterItem (w :: items) ++ rest)
      (by simp only [List.length_append, charsAfterItem, List.length_cons] at hfuel; omega)
      (delimited_afterItem _ rest)
    have hmore := ih w (fun u hu => h u (by simp [hu])) fuel (v :: done)
      (by simp only [List.length_append, charsAfterItem, List.length_cons] at hfuel ⊢; omega)
    rw [parseItems, hv]
    simp [charsAfterItem, skipBlanks_cons (c := ',') rfl, hmore]

theorem setField_eq_alter (key : String) (value : Json) (fields : List (String × Json)) :
    setField key value fields = alter key value (fun _ => value) fields := by
  induction fields with
  | nil => rfl
  | cons f rest ih => rw [setField, alter, ih]

theorem setField_of_new {key : String} {value : Json} {fields : List (String × Json)}
    (h : key ∉ fields.map (·.1)) : setField key value fields = fields ++ [(key, value)] := by
  rw [setField_eq_alter, alter_new h]

theorem key_not_mem {f : String × Json} {done fields : List (String × Json)}
    (h : ((done ++ f :: fields).map (·.1)).Nodup) : f.1 ∉ done.map (·.1) := by
  rw [List.map_append, List.nodup_append] at h
  exact fun hmem => h.2.2 f.1 hmem f.1 (by simp) rfl

/-- A field of an object is read, and it goes to the end of those that were read before. -/
theorem parseFields_field {depth fuel : Nat} {k : String} {v : Json} {done : List (String × Json)}
    (hv : Reads depth v) (hkey : k ∉ done.map (·.1)) (hfuel : v.chars.length < fuel)
    {rest : List Char} (hrest : Delimited rest) :
    parseFields (fuel + 1) depth done (quotedChars k ++ ':' :: (v.chars ++ rest))
      = match skipBlanks rest with
        | ',' :: rest => parseFields fuel depth (done ++ [(k, v)]) rest
        | '\x7d' :: rest => some (.object (done ++ [(k, v)]), rest)
        | _ => none := by
  have hquoted : quotedChars k ++ ':' :: (v.chars ++ rest)
      = '"' :: (k.toList.flatMap escapeChar ++ '"' :: ':' :: (v.chars ++ rest)) := by
    simp [quotedChars]
  rw [parseFields, hquoted, skipBlanks_cons rfl]
  simp only [parseString_quoted, skipBlanks_cons (c := ':') rfl, hv fuel rest hfuel hrest]
  exact setField_of_new hkey ▸ rfl

theorem parseFields_chars {depth : Nat} (f : String × Json) {fields : List (String × Json)}
    (h : ∀ g ∈ f :: fields, Reads depth g.2) (fuel : Nat) (done : List (String × Json))
    (rest : List Char) (hkeys : ((done ++ f :: fields).map (·.1)).Nodup)
    (hfuel : (quotedChars f.1 ++ ':' :: (f.2.chars ++ charsAfterField fields)).length < fuel) :
    parseFields fuel depth done
        (quotedChars f.1 ++ ':' :: (f.2.chars ++ (charsAfterField fields ++ rest)))
      = some (.object (done ++ f :: fields), rest) := by
  induction fields generalizing f fuel done with
  | nil =>
    obtain ⟨fuel, rfl⟩ := Nat.exists_eq_succ_of_ne_zero (Nat.ne_zero_of_lt hfuel)
    rw [parseFields_field (h f (by simp)) (key_not_mem hkeys)
      (by simp only [List.length_append, List.length_cons] at hfuel; omega)
      (delimited_afterField [] rest)]
    simp [charsAfterField, skipBlanks_cons (c := '\x7d') rfl]
  | cons g fields ih =>
    obtain ⟨fuel, rfl⟩ := Nat.exists_eq_succ_of_ne_zero (Nat.ne_zero_of_lt hfuel)
    have hmore := ih g (fun g' hg' => h g' (by simp [hg'])) fuel (done ++ [f])
      (by simpa using hkeys)
      (by
        simp only [List.length_append, List.length_cons, charsAfterField] at hfuel ⊢
        omega)
    rw [parseFields_field (h f (by simp)) (key_not_mem hkeys)
      (by simp only [List.length_append, List.length_cons] at hfuel; omega)
      (delimited_afterField _ rest)]
    simp [charsAfterField, skipBlanks_cons (c := ',') rfl, hmore]

/-! ## Legible values -/

/-- Whether reading the text of a number gives the number. -/
def Number.ReadsBack (n : Number) : Prop := parse? n.text = some (.number n)

instance (n : Number) : Decidable n.ReadsBack := inferInstanceAs (Decidable (_ = _))

theorem parse?_number (n : Number) : parse? n.text = (writtenNumber n).value?.map .number := by
  obtain ⟨c, cs, htext, hc⟩ := exists_text n
  have hnumber := parseNumber_text n Delimited.nil
  rw [List.append_nil, htext] at hnumber
  simp only [parse?, htext, parseValue_number hc, hnumber]
  cases (writtenNumber n).value? <;> rfl

theorem Number.ReadsBack.value? {n : Number} (h : n.ReadsBack) :
    (writtenNumber n).value? = some n := by
  rw [ReadsBack, parse?_number] at h
  obtain ⟨m, hm, hn⟩ := Option.map_eq_some_iff.mp h
  rw [hm, Json.number.inj hn]

mutual

/-- Whether the numbers in a value read back and its containers are nested at most to a depth. -/
def legible (depth : Nat) : Json → Bool
  | .number n => decide n.ReadsBack
  | .array items => decide (0 < depth) && legibleItems (depth - 1) items
  | .object fields => decide (0 < depth) && legibleFields (depth - 1) fields
  | _ => true
termination_by structural v => v

/-- Whether the values in a list are legible. -/
def legibleItems (depth : Nat) : List Json → Bool
  | [] => true
  | v :: rest => v.legible depth && legibleItems depth rest
termination_by structural vs => vs

/-- Whether the values of fields are legible. -/
def legibleFields (depth : Nat) : List (String × Json) → Bool
  | [] => true
  | (_, v) :: rest => v.legible depth && legibleFields depth rest
termination_by structural fs => fs

end

theorem legibleItems_iff {depth : Nat} {items : List Json} :
    legibleItems depth items = true ↔ ∀ v ∈ items, v.legible depth = true := by
  induction items with
  | nil => simp [legibleItems]
  | cons v rest ih => simp [legibleItems, ih]

theorem legibleFields_iff {depth : Nat} {fields : List (String × Json)} :
    legibleFields depth fields = true ↔ ∀ f ∈ fields, f.2.legible depth = true := by
  induction fields with
  | nil => simp [legibleFields]
  | cons f rest ih => simp [legibleFields, ih]

/-- The values in which no object has a field twice. -/
inductive Distinct : Json → Prop where
  | null : Distinct .null
  | bool (b : Bool) : Distinct (.bool b)
  | number (n : Number) : Distinct (.number n)
  | string (s : String) : Distinct (.string s)
  | array {items : List Json} (h : ∀ v ∈ items, Distinct v) : Distinct (.array items)
  | object {fields : List (String × Json)} (hkeys : (fields.map (·.1)).Nodup)
    (h : ∀ f ∈ fields, Distinct f.2) : Distinct (.object fields)

theorem Scripted.distinct {v : Json} (h : v.Scripted) : v.Distinct := by
  induction h with
  | null => exact .null
  | bool b => exact .bool b
  | string s => exact .string s
  | integer => exact .number _
  | float x => exact .number _
  | array _ ih => exact .array ih
  | object hkeys _ ih => exact .object hkeys ih

/-- The text of a legible value is read up to what stands behind it. -/
theorem Distinct.reads {v : Json} (h : v.Distinct) {depth : Nat} (hv : v.legible depth = true) :
    Reads depth v := by
  induction h generalizing depth with
  | null =>
    intro fuel rest hfuel hrest
    obtain ⟨fuel, rfl⟩ := Nat.exists_eq_succ_of_ne_zero (Nat.ne_zero_of_lt hfuel)
    rfl
  | bool b =>
    intro fuel rest hfuel hrest
    obtain ⟨fuel, rfl⟩ := Nat.exists_eq_succ_of_ne_zero (Nat.ne_zero_of_lt hfuel)
    cases b <;> rfl
  | number n =>
    intro fuel rest hfuel hrest
    obtain ⟨fuel, rfl⟩ := Nat.exists_eq_succ_of_ne_zero (Nat.ne_zero_of_lt hfuel)
    have hback : n.ReadsBack := by simpa [legible] using hv
    obtain ⟨c, cs, htext, hc⟩ := exists_text n
    have hnumber := parseNumber_text n hrest
    rw [htext, hback.value?] at hnumber
    rw [chars, htext, List.cons_append, parseValue_number hc]
    exact hnumber
  | string s =>
    intro fuel rest hfuel hrest
    obtain ⟨fuel, rfl⟩ := Nat.exists_eq_succ_of_ne_zero (Nat.ne_zero_of_lt hfuel)
    have hquoted : (Json.string s).chars ++ rest
        = '"' :: (s.toList.flatMap escapeChar ++ '"' :: rest) := by
      simp [chars, quotedChars]
    rw [hquoted, parseValue, skipBlanks_cons rfl]
    simp [parseString_quoted]
  | @array items _ ih =>
    intro fuel rest hfuel hrest
    obtain ⟨fuel, rfl⟩ := Nat.exists_eq_succ_of_ne_zero (Nat.ne_zero_of_lt hfuel)
    rw [legible, Bool.and_eq_true, decide_eq_true_eq, legibleItems_iff] at hv
    obtain ⟨hdepth, hitems⟩ := hv
    cases items with
    | nil => simp [chars, parseValue, skipBlanks, isBlank, hdepth.ne']
    | cons v items =>
      obtain ⟨c, cs, hv, hblank, hclose⟩ := exists_chars v
      have hread := parseItems_chars v (fun w hw => ih w hw (hitems w hw)) fuel [] rest
        (by simpa [chars] using hfuel)
      rw [hv, List.cons_append] at hread
      have hbracket : (Json.array (v :: items)).chars ++ rest
          = '[' :: c :: (cs ++ (charsAfterItem items ++ rest)) := by
        simp [chars, hv]
      rw [hbracket, parseValue, skipBlanks_cons rfl]
      simp only [hdepth.ne', if_false, skipBlanks_cons hblank]
      split
      · rename_i heq
        exact absurd (List.cons.inj heq).1 hclose
      · exact hread
  | @object fields hkeys _ ih =>
    intro fuel rest hfuel hrest
    obtain ⟨fuel, rfl⟩ := Nat.exists_eq_succ_of_ne_zero (Nat.ne_zero_of_lt hfuel)
    rw [legible, Bool.and_eq_true, decide_eq_true_eq, legibleFields_iff] at hv
    obtain ⟨hdepth, hfields⟩ := hv
    cases fields with
    | nil => simp [chars, parseValue, skipBlanks, isBlank, hdepth.ne']
    | cons f fields =>
      have hread := parseFields_chars f (fun g hg => ih g hg (hfields g hg)) fuel [] rest hkeys
        (by simpa [chars] using hfuel)
      have hquoted : (Json.object (f :: fields)).chars ++ rest = '\x7b' :: (quotedChars f.1
          ++ ':' :: (f.2.chars ++ (charsAfterField fields ++ rest))) := by
        simp [chars]
      rw [hquoted, parseValue, skipBlanks_cons rfl]
      simp only [hdepth.ne', if_false]
      rw [quotedChars, List.cons_append, skipBlanks_cons rfl]
      exact hread

/-- The text of a legible value in which no object has a field twice is read back as the value. -/
theorem parse?_text {v : Json} (hdistinct : v.Distinct) (h : v.legible nestingLimit = true) :
    parse? v.text = some v := by
  have hread := hdistinct.reads h (2 * v.chars.length + 2) [] (by omega) .nil
  rw [List.append_nil] at hread
  simp [parse?, text, hread, skipBlanks]

end HttpContract.Json
