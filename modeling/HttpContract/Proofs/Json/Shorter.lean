import HttpContract.Json.Parser

/-!
# Json — strings are shorter than their texts

A string that is read from a text has fewer characters than the text, whose quotes it leaves out.
So no text is JSON for itself (`parse?_ne_string`).
-/

namespace HttpContract.Json

theorem parseHex4_length {cs rest : List Char} {n : Nat} (h : parseHex4 cs = some (n, rest)) :
    rest.length < cs.length := by
  unfold parseHex4 at h
  split at h
  · simp only [Option.bind_eq_bind, Option.bind_eq_some_iff, Option.some.injEq, Prod.mk.injEq] at h
    obtain ⟨-, -, -, -, -, -, -, -, -, rfl⟩ := h
    simp only [List.length_cons]
    omega
  · cases h

theorem parseUnicodeEscape_length {cs rest : List Char} {c : Char}
    (h : parseUnicodeEscape cs = some (c, rest)) : rest.length < cs.length := by
  simp only [parseUnicodeEscape, Option.bind_eq_bind, Option.bind_eq_some_iff] at h
  obtain ⟨⟨n, more⟩, hhex, h⟩ := h
  have hmore := parseHex4_length hhex
  simp only at h
  split at h
  · cases h
    exact hmore
  · split at h
    · cases h
    · split at h
      · simp only [Option.bind_eq_some_iff] at h
        obtain ⟨⟨m, left⟩, hhex', h⟩ := h
        have hleft := parseHex4_length hhex'
        simp only at h
        split at h
        · have hrest := (Prod.mk.inj (Option.some.inj h)).2
          rw [← hrest]
          simp only [List.length_cons] at hmore
          omega
        · cases h
      · cases h

/-- A string has fewer characters than what it is read from. -/
theorem parseStringFrom_length {fuel : Nat} {done cs rest : List Char} {s : String}
    (h : parseStringFrom fuel done cs = some (s, rest)) : s.length < done.length + cs.length := by
  induction fuel generalizing done cs with
  | zero => cases h
  | succ fuel ih =>
    cases cs with
    | nil => cases h
    | cons c cs =>
      rw [parseStringFrom.eq_def] at h
      simp only at h
      split at h
      · cases h
        simp only [String.length_ofList, List.length_reverse, List.length_cons]
        omega
      · split at h
        · split at h
          · split at h
            · rename_i hescape
              have hlength := parseUnicodeEscape_length hescape
              have hs := ih h
              simp only [List.length_cons] at hs ⊢
              omega
            · cases h
          · split at h
            · have hs := ih h
              simp only [List.length_cons] at hs ⊢
              omega
            · cases h
          · cases h
        · split at h
          · cases h
          · have hs := ih h
            simp only [List.length_cons] at hs ⊢
            omega

theorem parseItems_array {fuel depth : Nat} {done : List Json} {cs rest : List Char} {v : Json}
    (h : parseItems fuel depth done cs = some (v, rest)) : ∃ items, v = .array items := by
  induction fuel generalizing done cs with
  | zero => cases h
  | succ fuel ih =>
    rw [parseItems] at h
    split at h
    · cases h
    · split at h
      · exact ih h
      · cases h
        exact ⟨_, rfl⟩
      · cases h

theorem parseFields_object {fuel depth : Nat} {done : List (String × Json)} {cs rest : List Char}
    {v : Json} (h : parseFields fuel depth done cs = some (v, rest)) :
    ∃ fields, v = .object fields := by
  induction fuel generalizing done cs with
  | zero => cases h
  | succ fuel ih =>
    rw [parseFields] at h
    split at h
    · split at h
      · cases h
      · split at h
        · split at h
          · cases h
          · split at h
            · exact ih h
            · cases h
              exact ⟨_, rfl⟩
            · cases h
        · cases h
    · cases h

theorem parseValue_string_length {fuel depth : Nat} {cs rest : List Char} {s : String}
    (h : parseValue fuel depth cs = some (.string s, rest)) : s.length < cs.length := by
  have hskip : (skipBlanks cs).length ≤ cs.length := (List.dropWhile_sublist _).length_le
  cases fuel with
  | zero => cases h
  | succ fuel =>
    rw [parseValue] at h
    split at h
    · cases h
    · rename_i more hcs
      obtain ⟨⟨t, left⟩, hstring, heq⟩ := Option.map_eq_some_iff.mp h
      obtain rfl : t = s := string.inj (Prod.mk.inj heq).1
      have hlength : t.length < [].length + more.length := parseStringFrom_length hstring
      rw [hcs, List.length_cons] at hskip
      rw [List.length_nil] at hlength
      omega
    · split at h
      · cases h
      · split at h
        · cases h
        · obtain ⟨items, hitems⟩ := parseItems_array h
          cases hitems
    · split at h
      · cases h
      · split at h
        · cases h
        · obtain ⟨fields, hfields⟩ := parseFields_object h
          cases hfields
    · cases h
    · cases h
    · cases h
    · simp only [parseNumber, Option.bind_eq_bind, Option.bind_eq_some_iff] at h
      obtain ⟨_, -, _, -, hnumber⟩ := h
      cases hnumber

/-- No text is JSON for itself: the quotes are missing. -/
theorem parse?_ne_string (s : String) : parse? s ≠ some (.string s) := by
  intro h
  rw [parse?] at h
  split at h
  · rename_i v rest hparse
    split at h
    · cases h
      have hlength := parseValue_string_length hparse
      rw [String.length_toList] at hlength
      omega
    · cases h
  · cases h

end HttpContract.Json
