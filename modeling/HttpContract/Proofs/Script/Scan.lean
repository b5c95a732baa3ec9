import HttpContract.Proofs.Script.Numeral
import HttpContract.Json.Printer

/-!
# Script — the tokens of written texts

`Yields` says which token a text starts with, wherever it stands, and what is left; `Scans` strings
such tokens together. A written text scans to its tokens with anything behind it that does not run
into its last token, so texts that are put together scan to their tokens put together. A text that
scans to its end is the tokens of a script (`Scans.ofScript`).
-/

namespace HttpContract.Script

open Json.Number (writtenDouble digital_writtenDouble)

/-! ## The first token -/

/-- The first token of a text, wherever it stands, and the text behind it. -/
structure Yields (cs : List Char) (k : TokenKind) (rest : List Char) : Prop where
  kind : k ≠ .finish
  shorter : rest.length < cs.length
  reads : ∀ p, ∃ q p', nextToken ⟨p, cs⟩ = .ok (⟨k, q⟩, ⟨p', rest⟩)

/-- A blank in front is passed over. -/
theorem nextToken_blank {c : Char} (h : Unicode.isWhiteSpace c = true) (p : Place)
    (cs : List Char) : nextToken ⟨p, c :: cs⟩ = nextToken ⟨p.after c, cs⟩ := by
  have hslash : c ≠ '/' := by
    rintro rfl
    exact absurd h (by decide)
  have hskip : skip .blanks p (c :: cs) = skip .blanks (p.after c) cs := by
    rw [skip.eq_def]
    split <;> simp_all
  simp only [nextToken, hskip]

/-- Blanks in front are passed over. -/
theorem nextToken_blanks {bs : List Char} (h : ∀ c ∈ bs, Unicode.isWhiteSpace c = true)
    (p : Place) (cs : List Char) : ∃ p', nextToken ⟨p, bs ++ cs⟩ = nextToken ⟨p', cs⟩ := by
  induction bs generalizing p with
  | nil => exact ⟨p, rfl⟩
  | cons b bs ih =>
    rw [List.cons_append, nextToken_blank (h b (by simp))]
    exact ih (fun c hc => h c (by simp [hc])) (p.after b)

/-- Blanks in front do not count. -/
theorem Yields.blanks {bs cs rest : List Char} {k : TokenKind}
    (h : ∀ c ∈ bs, Unicode.isWhiteSpace c = true) (hk : Yields cs k rest) :
    Yields (bs ++ cs) k rest where
  kind := hk.kind
  shorter := by
    have hshorter := hk.shorter
    rw [List.length_append]
    omega
  reads := by
    intro p
    obtain ⟨p', hp'⟩ := nextToken_blanks h p cs
    rw [hp']
    exact hk.reads p'

/-- Nothing is skipped in front of a character that is neither blank nor a slash. -/
def Solid (c : Char) : Prop := c ≠ '/' ∧ Unicode.isWhiteSpace c = false

theorem skip_solid {c : Char} (h : Solid c) (p : Place) (cs : List Char) :
    skip .blanks p (c :: cs) = .ok ⟨p, c :: cs⟩ := by
  rw [skip.eq_def]
  split <;> simp_all [Solid]

/-- The first token of a text is what is read from its first character on. -/
theorem Yields.of_readToken {c : Char} {cs rest : List Char} {k : TokenKind} (hc : Solid c)
    (hk : k ≠ .finish) (hlen : rest.length ≤ cs.length)
    (h : ∀ p, ∃ p', readToken p c cs = .ok (k, ⟨p', rest⟩)) : Yields (c :: cs) k rest where
  kind := hk
  shorter := Nat.lt_succ_of_le hlen
  reads := by
    intro p
    obtain ⟨p', hp'⟩ := h p
    exact ⟨p, p', by simp only [nextToken, skip_solid hc, hp']⟩

/-! ## Symbols -/

theorem solid_symbol (s : Symbol) : Solid s.char := by
  cases s <;> exact ⟨by decide, by decide⟩

/-- A symbol is a token, unless a point starts a number. -/
theorem yields_symbol (s : Symbol) {rest : List Char} (h : startsNumber s.char rest = false) :
    Yields (s.char :: rest) (.symbol s) rest := by
  refine .of_readToken (solid_symbol s) (by simp) (Nat.le_refl _) fun p => ⟨p.after s.char, ?_⟩
  have hquote : ¬(s.char = '\'' ∨ s.char = '"') := by cases s <;> decide
  have hname : startsIdentifier s.char = false := by cases s <;> decide
  have hsymbol : Symbol.ofChar? s.char = some s := by cases s <;> rfl
  simp [readToken, hquote, h, hname, hsymbol]

theorem startsNumber_symbol {s : Symbol} (h : s ≠ .dot) (rest : List Char) :
    startsNumber s.char rest = false := by
  cases s <;> first | rfl | exact absurd rfl h

/-! ## Texts -/

theorem hexDigitValue?_hexDigit : ∀ n < 16, Json.hexDigitValue? (Json.hexDigit n) = some n := by
  decide

/-- The code of a control character stands for it. -/
theorem codeChar?_control {c : Char} (h : c.toNat < 32) :
    codeChar? '0' '0' (Json.hexDigit (c.toNat / 16)) (Json.hexDigit (c.toNat % 16)) = some c := by
  have h0 : Json.hexDigitValue? '0' = some 0 := rfl
  have h1 := hexDigitValue?_hexDigit (c.toNat / 16) (by omega)
  have h2 := hexDigitValue?_hexDigit (c.toNat % 16) (by omega)
  have hcode : ((0 * 16 + 0) * 16 + c.toNat / 16) * 16 + c.toNat % 16 = c.toNat := by omega
  simp only [codeChar?, h0, h1, h2, Option.bind_eq_bind, Option.bind_some, hcode]
  rw [if_neg (by omega), Char.ofNat_toNat]

theorem readString_letter (done : List Char) (p : Place) {c : Char} (hu : c ≠ 'u') (hn : c ≠ '\n')
    (cs : List Char) :
    readString '"' done p ('\\' :: c :: cs)
      = readString '"' (escaped c :: done) (p.afterAll ['\\', c]) cs := by
  rw [readString]
  · intro _ _ _ _ _ h
    exact absurd h hu
  · exact hu
  · exact hn

theorem readString_plain (done : List Char) (p : Place) {c : Char} (hslash : c ≠ '\\')
    (cs : List Char) :
    readString '"' done p (c :: cs)
      = if c = '\n' then .error .unterminatedString
        else if c = '"' then .ok (String.ofList done.reverse, ⟨p.after c, cs⟩)
        else readString '"' (c :: done) (p.after c) cs := by
  rw [readString]
  exact hslash

/-- Reading a text passes over what a character is written as and takes the character. -/
theorem readString_escapeChar (done : List Char) (p : Place) (c : Char) (cs : List Char) :
    ∃ p', readString '"' done p (Json.escapeChar c ++ cs) = readString '"' (c :: done) p' cs := by
  unfold Json.escapeChar
  split
  -- the characters that have a letter behind a backslash
  iterate 7 exact ⟨_, readString_letter done p (by decide) (by decide) cs⟩
  rename_i hquote hslash _ _ hline _ _
  split
  · rename_i hcontrol
    refine ⟨p.afterAll ['\\', 'u', '0', '0', Json.hexDigit (c.toNat / 16),
      Json.hexDigit (c.toNat % 16)], ?_⟩
    simp only [List.cons_append, List.nil_append]
    rw [readString]
    simp only [codeChar?_control hcontrol]
  · refine ⟨p.after c, ?_⟩
    rw [List.cons_append, List.nil_append, readString_plain done p hslash, if_neg hline,
      if_neg hquote]

theorem readString_quoted (cs rest done : List Char) (p : Place) :
    ∃ p', readString '"' done p (cs.flatMap Json.escapeChar ++ '"' :: rest)
      = .ok (String.ofList (done.reverse ++ cs), ⟨p', rest⟩) := by
  induction cs generalizing done p with
  | nil =>
    refine ⟨p.after '"', ?_⟩
    rw [List.flatMap_nil, List.nil_append, List.append_nil, readString_plain done p (by decide)]
    rfl
  | cons c cs ih =>
    obtain ⟨q, hq⟩ := readString_escapeChar done p c (cs.flatMap Json.escapeChar ++ '"' :: rest)
    obtain ⟨p', hp'⟩ := ih (c :: done) q
    refine ⟨p', ?_⟩
    rw [List.flatMap_cons, List.append_assoc, hq, hp']
    simp

/-- A quoted text is a token for the text, whatever its characters. -/
theorem yields_quoted (s : String) (rest : List Char) :
    Yields (Json.quotedChars s ++ rest) (.string s) rest := by
  rw [Json.quotedChars, List.cons_append, List.append_assoc]
  refine .of_readToken ⟨by decide, by decide⟩ (by simp) (by simp; omega) fun p => ?_
  obtain ⟨p', hp'⟩ := readString_quoted s.toList rest [] (p.after '"')
  exact ⟨p', by simp [readToken, hp']⟩

/-! ## Names -/

/-- Whether a text is a name that starts with an ASCII letter. -/
def isPlainName (name : String) : Bool :=
  match name.toList with
  | [] => false
  | c :: more => c.isAlpha && more.all inIdentifier

theorem toNat_of_isAlpha {c : Char} (h : c.isAlpha = true) :
    (65 ≤ c.toNat ∧ c.toNat ≤ 90) ∨ (97 ≤ c.toNat ∧ c.toNat ≤ 122) := by
  have hcases : (c.isUpper || c.isLower) = true := h
  have hupper : c.isUpper = decide (c.val ≥ 'A'.val ∧ c.val ≤ 'Z'.val) := rfl
  have hlower : c.isLower = (c.val ≥ 'a'.val && c.val ≤ 'z'.val) := rfl
  rw [hupper, hlower] at hcases
  simpa [UInt32.le_iff_toNat_le] using hcases

theorem delimiter_not_inIdentifier {c : Char} (h : c ∈ delimiters) : inIdentifier c = false := by
  have hall : delimiters.all (fun c => inIdentifier c = false) = true := by decide
  exact of_decide_eq_true (List.all_eq_true.mp hall c h)

/-- A name is a token if it ends where its characters end. -/
theorem yields_name {name : String} (h : isPlainName name = true) {rest : List Char}
    (hrest : ∀ c ∈ rest.head?, inIdentifier c = false) :
    Yields (name.toList ++ rest) (.identifier name) rest := by
  unfold isPlainName at h
  cases hname : name.toList with
  | nil => simp [hname] at h
  | cons c more =>
    simp only [hname, Bool.and_eq_true, List.all_eq_true] at h
    obtain ⟨halpha, hmore⟩ := h
    have hrange := toNat_of_isAlpha halpha
    have hne : ∀ d : Char, d.toNat < 65 → c ≠ d := by
      rintro d hd rfl
      omega
    -- a letter is no blank or slash, opens no text and starts no number
    have hsolid : Solid c := by
      refine ⟨hne '/' (by decide), ?_⟩
      have hlt : c.toNat < 128 := by omega
      have hblank : c ≠ ' ' := hne ' ' (by decide)
      simp only [Unicode.isWhiteSpace, hlt, if_true, Bool.or_eq_false_iff, beq_eq_false_iff_ne,
        Bool.and_eq_false_iff, decide_eq_false_iff_not]
      exact ⟨hblank, .inr (by omega)⟩
    have hquote : ¬(c = '\'' ∨ c = '"') := by
      rintro (rfl | rfl)
      · exact hne '\'' (by decide) rfl
      · exact hne '"' (by decide) rfl
    have hnumber : startsNumber c (more ++ rest) = false := by
      have hdigit : c.isDigit = false := by
        simp only [Char.isDigit, UInt32.le_iff_toNat_le, Bool.and_eq_false_iff,
          decide_eq_false_iff_not]
        exact .inr (by show ¬ c.toNat ≤ 57; omega)
      simp [startsNumber, hdigit, hne '.' (by decide)]
    have hstart : startsIdentifier c = true := by
      have hlt : c.toNat < 128 := by omega
      simp [startsIdentifier, Unicode.isAlphabetic, hlt, halpha]
    rw [List.cons_append]
    refine .of_readToken hsolid (by simp) (by simp) fun p => ⟨p.afterAll (c :: more), ?_⟩
    have hof : String.ofList (c :: more) = name := by rw [← hname, String.ofList_toList]
    have hspan := span_append hmore hrest
    simp only [readToken, hquote, if_false, hnumber, Bool.false_eq_true, hstart, if_true, hspan,
      hof]

theorem Delimited.not_inIdentifier {rest : List Char} (h : Delimited rest) :
    ∀ c ∈ rest.head?, inIdentifier c = false :=
  fun c hc => delimiter_not_inIdentifier (h c hc)

/-! ## Numbers -/

theorem solid_digit {c : Char} (h : c.isDigit = true) : Solid c ∧ ¬(c = '\'' ∨ c = '"') := by
  have hrange : 48 ≤ c.toNat ∧ c.toNat ≤ 57 := by
    simpa [Char.isDigit, UInt32.le_iff_toNat_le] using h
  have hne : ∀ d : Char, d.toNat < 48 → c ≠ d := by
    rintro d hd rfl
    omega
  refine ⟨⟨hne '/' (by decide), ?_⟩, ?_⟩
  · have hlt : c.toNat < 128 := by omega
    simp only [Unicode.isWhiteSpace, hlt, if_true, Bool.or_eq_false_iff, beq_eq_false_iff_ne,
      Bool.and_eq_false_iff, decide_eq_false_iff_not]
    exact ⟨hne ' ' (by decide), .inr (by omega)⟩
  · rintro (rfl | rfl)
    · exact hne '\'' (by decide) rfl
    · exact hne '"' (by decide) rfl

/-- A text that starts with a digit and is taken as a whole is a token for its number. -/
theorem yields_number {c : Char} {cs rest : List Char} {n : Json.Number} (hc : c.isDigit = true)
    (hspan : spanNumber (c :: cs ++ rest) = (c :: cs, rest)) (hn : number? (c :: cs) = some n) :
    Yields (c :: cs ++ rest) (.number n) rest := by
  obtain ⟨hsolid, hquote⟩ := solid_digit hc
  refine .of_readToken hsolid (by simp) (by simp) fun p => ⟨p.afterAll (c :: cs), ?_⟩
  have hstart : startsNumber c (cs ++ rest) = true := by simp [startsNumber, hc]
  rw [List.cons_append] at hspan
  simp [readToken, hquote, hstart, hspan, hn]

/-- A whole number without a sign is a token. -/
theorem yields_integer {n : Nat} (hn : n < 9223372036854775808) {rest : List Char}
    (h : Delimited rest) :
    Yields (Nat.toDigits 10 n ++ rest) (.number (.integer (Json.WordInt.ofInt n))) rest := by
  have hspan := spanNumber_toDigits n h
  have hnumber := number?_integer hn
  have hdigits := Json.Number.allDigits_toDigits n
  cases hds : Nat.toDigits 10 n with
  | nil => exact absurd hds Nat.toDigits_ne_nil
  | cons d ds =>
    rw [hds] at hspan hnumber hdigits
    exact yields_number (hdigits d (by simp)) hspan hnumber

/-- A double without a sign is a token. -/
theorem yields_double (x : Binary64) {rest : List Char} (h : Delimited rest) :
    Yields ((writtenDouble x).body ++ rest) (.number (.float { x with negative := false }))
      rest := by
  have hdigital := digital_writtenDouble x
  have hspan := spanNumber_bodyWith hdigital true (.inl rfl) h
  rw [← Json.Number.Written.body_eq_bodyWith] at hspan
  have hnumber := number?_double x
  cases hwhole : (writtenDouble x).whole with
  | nil => exact absurd hwhole hdigital.whole_ne
  | cons d ds =>
    have hd : d.isDigit = true := hdigital.whole d (by simp [hwhole])
    rw [Json.Number.Written.body, hwhole, List.cons_append] at hspan hnumber ⊢
    exact yields_number hd hspan hnumber

/-! ## Sequences of tokens -/

/-- The tokens that a text starts with and the text behind them. -/
inductive Scans : List Char → List TokenKind → List Char → Prop where
  | nil (cs : List Char) : Scans cs [] cs
  | cons {cs mid rest : List Char} {k : TokenKind} {ks : List TokenKind} :
    Yields cs k mid → Scans mid ks rest → Scans cs (k :: ks) rest

theorem Yields.scans {cs rest : List Char} {k : TokenKind} (h : Yields cs k rest) :
    Scans cs [k] rest := .cons h (.nil rest)

theorem Scans.append {as bs cs : List Char} {ks ls : List TokenKind} (h : Scans as ks bs)
    (h' : Scans bs ls cs) : Scans as (ks ++ ls) cs := by
  induction h with
  | nil => exact h'
  | cons hk _ ih => exact .cons hk (ih h')

/-- Blanks in front do not count. -/
theorem Scans.blanks {bs cs rest : List Char} {k : TokenKind} {ks : List TokenKind}
    (hbs : ∀ c ∈ bs, Unicode.isWhiteSpace c = true) (h : Scans cs (k :: ks) rest) :
    Scans (bs ++ cs) (k :: ks) rest := by
  cases h with
  | cons hk hrest => exact .cons (hk.blanks hbs) hrest

theorem scans_symbol {s : Symbol} (hs : s ≠ .dot) {cs rest : List Char} {ks : List TokenKind}
    (h : Scans cs ks rest) : Scans (s.char :: cs) (.symbol s :: ks) rest :=
  .cons (yields_symbol s (startsNumber_symbol hs cs)) h

theorem Scans.finish_not_mem {cs rest : List Char} {ks : List TokenKind} (h : Scans cs ks rest) :
    .finish ∉ ks := by
  induction h with
  | nil => simp
  | cons hk _ ih => simp [hk.kind.symm, ih]

/-! ## Whole scripts -/

/-- A text without any token. -/
def Ends (cs : List Char) : Prop :=
  ∀ p, ∃ q cursor, nextToken ⟨p, cs⟩ = .ok (⟨.finish, q⟩, cursor)

theorem ends_nil : Ends [] := fun p => ⟨p, ⟨p, []⟩, by simp [nextToken, skip]⟩

theorem ends_blanks {bs : List Char} (h : ∀ c ∈ bs, Unicode.isWhiteSpace c = true) : Ends bs := by
  intro p
  obtain ⟨p', hp'⟩ := nextToken_blanks h p []
  rw [List.append_nil] at hp'
  rw [hp']
  exact ends_nil p'

theorem ends_newline : Ends ['\n'] := ends_blanks (by simp [Unicode.isWhiteSpace])

/-- What a text scans to is read first, and then what is left. -/
theorem Scans.readTokens {cs rest : List Char} {ks : List TokenKind} (h : Scans cs ks rest)
    (count : Nat) (p : Place) (hcount : cs.length < count) :
    ∃ left q, rest.length < left
      ∧ (readTokens count ⟨p, cs⟩).list.map (·.kind)
        = ks ++ (readTokens left ⟨q, rest⟩).list.map (·.kind)
      ∧ (readTokens count ⟨p, cs⟩).ending = (readTokens left ⟨q, rest⟩).ending := by
  induction h generalizing count p with
  | nil cs => exact ⟨count, p, hcount, rfl, rfl⟩
  | @cons cs mid rest k ks hk _ ih =>
    obtain ⟨q, p', hq⟩ := hk.reads p
    obtain ⟨count, rfl⟩ :=
      Nat.exists_eq_add_one_of_ne_zero (Nat.ne_of_gt (Nat.zero_lt_of_lt hcount))
    have hmid : mid.length < count := Nat.lt_of_lt_of_le hk.shorter (Nat.le_of_lt_succ hcount)
    obtain ⟨left, q', hleft, hkinds, hending⟩ := ih count p' hmid
    have hfinish := hk.kind
    rw [Script.readTokens, hq]
    cases k with
    | finish => exact absurd rfl hfinish
    | _ => exact ⟨left, q', hleft, by simpa using hkinds, hending⟩

/-- A text that scans to its end is the tokens of a script. -/
theorem Scans.ofScript {cs rest : List Char} {ks : List TokenKind} (h : Scans cs ks rest)
    (hend : Ends rest) :
    (Tokens.ofScript cs).list.map (·.kind) = ks
      ∧ ∃ place, (Tokens.ofScript cs).ending = .finished place := by
  obtain ⟨left, q, hleft, hkinds, hending⟩ := h.readTokens (cs.length + 1) {} (Nat.lt_succ_self _)
  obtain ⟨place, cursor, hnext⟩ := hend q
  obtain ⟨left, rfl⟩ := Nat.exists_eq_add_one_of_ne_zero (Nat.ne_of_gt (Nat.zero_lt_of_lt hleft))
  simp only [Script.readTokens, hnext, List.map_nil, List.append_nil] at hkinds hending
  exact ⟨hkinds, place, hending⟩

/-- A text that scans to a flaw is a script with the flaw. -/
theorem Scans.ofScript_flawed {cs rest : List Char} {ks : List TokenKind} {flaw : Flaw}
    (h : Scans cs ks rest) (hflaw : ∀ p, ∃ q, nextToken ⟨p, rest⟩ = .error (q, flaw)) :
    ∃ place, (Tokens.ofScript cs).ending = .flawed place flaw := by
  obtain ⟨left, q, hleft, -, hending⟩ := h.readTokens (cs.length + 1) {} (Nat.lt_succ_self _)
  obtain ⟨place, hnext⟩ := hflaw q
  obtain ⟨left, rfl⟩ := Nat.exists_eq_add_one_of_ne_zero (Nat.ne_of_gt (Nat.zero_lt_of_lt hleft))
  simp only [Script.readTokens, hnext] at hending
  exact ⟨place, hending⟩

/-! ## What is read -/

/-- A token as scripts have it before their end: a whole number has no sign and fits a signed
word. -/
def TokenKind.Lexical : TokenKind → Prop
  | .finish => False
  | .number (.integer n) => 0 ≤ n.val ∧ n.val < 9223372036854775808
  | _ => True

theorem lexical_number? {cs : List Char} {n : Json.Number} (h : number? cs = some n) :
    (TokenKind.number n).Lexical := by
  unfold number? at h
  split at h
  · rename_i hsmall
    simp only [Bool.and_eq_true, decide_eq_true_eq] at hsmall
    cases h
    simp only [TokenKind.Lexical, Json.WordInt.ofInt]
    omega
  · simp only [Option.bind_eq_some_iff, Option.map_eq_some_iff] at h
    obtain ⟨d, -, x, -, rfl⟩ := h
    trivial

theorem lexical_readToken {p : Place} {c : Char} {cs : List Char} {k : TokenKind} {cursor : Cursor}
    (h : readToken p c cs = .ok (k, cursor)) : k.Lexical := by
  unfold readToken at h
  split at h
  · split at h <;> cases h
    trivial
  split at h
  · simp only at h
    split at h
    · rename_i hn
      cases h
      exact lexical_number? hn
    · cases h
  split at h
  · cases h
    trivial
  · split at h <;> cases h
    trivial

theorem lexical_nextToken {cursor cursor' : Cursor} {t : Token}
    (h : nextToken cursor = .ok (t, cursor')) (hfinish : t.kind ≠ .finish) : t.kind.Lexical := by
  unfold nextToken at h
  split at h
  · cases h
  · cases h
    exact absurd rfl hfinish
  · split at h
    · cases h
    · rename_i hread
      cases h
      exact lexical_readToken hread

/-- All tokens of a script are as scripts have them before their end. -/
theorem lexical_readTokens (count : Nat) (cursor : Cursor) :
    ∀ t ∈ (readTokens count cursor).list, t.kind.Lexical := by
  induction count generalizing cursor with
  | zero => simp [Script.readTokens]
  | succ count ih =>
    rw [Script.readTokens]
    split
    · simp
    · simp
    · rename_i t cursor' hne hnext
      intro u hu
      rcases List.mem_cons.mp hu with rfl | hu
      · apply lexical_nextToken hnext
        intro hfinish
        exact hne u.place (by rw [← hfinish])
      · exact ih cursor' u hu

end HttpContract.Script
