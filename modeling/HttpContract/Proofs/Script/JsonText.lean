import HttpContract.Library.Simple
import HttpContract.Proofs.Script.JsonValue
import HttpContract.Proofs.Script.Run

/-!
# Script — texts of JSON as scripts

A text of JSON that stands for a value is a script whose literal agrees with the value, unless a
character in it is written with the codes of two surrogates (`run_json`): each code is read for
itself, and that of a surrogate stands for no character. `Tokenizes` strings the tokens of a text
together where blanks may stand anywhere between them, and `Breaks` says that reading a text meets a
code that stands for nothing.
-/

namespace HttpContract.Script

open Json (Blanks HexCode Letter Numeral Phrase Key comma isBlank)
open Json.Phrase (ItemsDenote FieldsDenote itemChars fieldChars itemsHavePair fieldsHavePair
  itemExpressions fieldExpressions)

/-! ## Blanks -/

theorem isWhiteSpace_of_isBlank {c : Char} (h : isBlank c = true) :
    Unicode.isWhiteSpace c = true := by
  simp only [isBlank, Bool.or_eq_true, beq_iff_eq] at h
  rcases h with ((rfl | rfl) | rfl) | rfl <;> decide

theorem isWhiteSpace_blanks (b : Blanks) : ∀ c ∈ b.chars, Unicode.isWhiteSpace c = true :=
  fun c hc => isWhiteSpace_of_isBlank (b.blank c hc)

theorem delimiter_of_isBlank {c : Char} (h : isBlank c = true) : c ∈ delimiters := by
  simp only [isBlank, Bool.or_eq_true, beq_iff_eq] at h
  rcases h with ((rfl | rfl) | rfl) | rfl <;> decide

theorem delimited_blanks (b : Blanks) {rest : List Char} (h : Delimited rest) :
    Delimited (b.chars ++ rest) := by
  obtain ⟨chars, hblank⟩ := b
  cases chars with
  | nil => exact h
  | cons c cs => exact .cons (delimiter_of_isBlank (hblank c (by simp)))

/-! ## Strings -/

/-- A code is read as its character, if it has one. -/
theorem codeChar?_eq {h : HexCode} {n : Nat} (hn : h.value? = some n) :
    codeChar? h.first h.second h.third h.fourth
      = if 0xd800 ≤ n ∧ n ≤ 0xdfff then none else some (Char.ofNat n) := by
  unfold HexCode.value? at hn
  simp only [Option.bind_eq_bind, Option.bind_eq_some_iff, Option.some.injEq] at hn
  obtain ⟨a, ha, b, hb, c, hc, d, hd, rfl⟩ := hn
  simp only [codeChar?, ha, hb, hc, hd, Option.bind_eq_bind, Option.bind_some]

/-- Reading a string takes the character of a code, unless that is the code of a surrogate. -/
theorem readString_code {h : HexCode} {n : Nat} (hn : h.value? = some n) (done : List Char)
    (p : Place) (cs : List Char) :
    readString '"' done p (h.chars ++ cs)
      = if 0xd800 ≤ n ∧ n ≤ 0xdfff then .error .invalidEscape
        else readString '"' (Char.ofNat n :: done) (p.afterAll h.chars) cs := by
  have hcode := codeChar?_eq hn
  simp only [HexCode.chars, List.cons_append, List.nil_append]
  by_cases hsurrogate : 0xd800 ≤ n ∧ n ≤ 0xdfff
  · rw [if_pos hsurrogate] at hcode ⊢
    rw [readString]
    simp only [hcode]
  · rw [if_neg hsurrogate] at hcode ⊢
    rw [readString]
    simp only [hcode]

theorem escaped_of_simpleEscape? {c x : Char} (h : Json.simpleEscape? c = some x) :
    c ≠ 'u' ∧ c ≠ '\n' ∧ escaped c = x := by
  unfold Json.simpleEscape? at h
  split at h <;> cases h <;> exact ⟨by decide, by decide, rfl⟩

/-- Reading a string passes over a letter and takes its character. -/
theorem readString_spelled {l : Letter} {c : Char} (hc : l.value? = some c)
    (hpair : l.isPair = false) (done : List Char) (p : Place) (cs : List Char) :
    ∃ p', readString '"' done p (l.chars ++ cs) = readString '"' (c :: done) p' cs := by
  cases l with
  | plain d =>
    rw [Letter.value?, Option.ite_none_right_eq_some] at hc
    obtain ⟨⟨hquote, hslash, hcontrol⟩, hd⟩ := hc
    cases hd
    have hline : c ≠ '\n' := by
      rintro rfl
      exact absurd hcontrol (by decide)
    refine ⟨p.after c, ?_⟩
    rw [Letter.chars, List.cons_append, List.nil_append, readString_plain done p hslash,
      if_neg hline, if_neg hquote]
  | short d =>
    obtain ⟨hu, hline, hd⟩ := escaped_of_simpleEscape? hc
    refine ⟨p.afterAll ['\\', d], ?_⟩
    rw [Letter.chars, List.cons_append, List.cons_append, List.nil_append,
      readString_letter done p hu hline, hd]
  | code h =>
    simp only [Letter.value?, Option.bind_eq_bind, Option.bind_eq_some_iff] at hc
    obtain ⟨n, hn, hvalue⟩ := hc
    rw [Option.ite_none_left_eq_some, Option.some.injEq] at hvalue
    obtain ⟨hsurrogate, rfl⟩ := hvalue
    exact ⟨p.afterAll h.chars, by rw [Letter.chars, readString_code hn, if_neg hsurrogate]⟩
  | pair high low => cases hpair

/-- Reading a string ends at the code of a surrogate. -/
theorem readString_pair {l : Letter} {c : Char} (hc : l.value? = some c)
    (hpair : l.isPair = true) (done : List Char) (p : Place) (cs : List Char) :
    readString '"' done p (l.chars ++ cs) = .error .invalidEscape := by
  cases l with
  | pair high low =>
    simp only [Letter.value?, Option.bind_eq_bind, Option.bind_eq_some_iff,
      Option.ite_none_right_eq_some] at hc
    obtain ⟨n, hn, m, -, ⟨hlow, hhigh, -⟩, -⟩ := hc
    rw [Letter.chars, List.append_assoc, readString_code hn, if_pos ⟨hlow, by omega⟩]
  | _ => cases hpair

theorem readString_letters {ls : List Letter} {cs : List Char}
    (h : List.Forall₂ (fun l c => l.value? = some c) ls cs) (hpair : ls.any Letter.isPair = false)
    (done : List Char) (p : Place) (rest : List Char) :
    ∃ p', readString '"' done p (ls.flatMap Letter.chars ++ '"' :: rest)
      = .ok (String.ofList (done.reverse ++ cs), ⟨p', rest⟩) := by
  induction h generalizing done p with
  | nil =>
    refine ⟨p.after '"', ?_⟩
    rw [List.flatMap_nil, List.nil_append, List.append_nil, readString_plain done p (by decide)]
    rfl
  | @cons l c ls cs hl _ ih =>
    rw [List.any_cons, Bool.or_eq_false_iff] at hpair
    obtain ⟨q, hq⟩ := readString_spelled hl hpair.1 done p (ls.flatMap Letter.chars ++ '"' :: rest)
    obtain ⟨p', hp'⟩ := ih hpair.2 (c :: done) q
    refine ⟨p', ?_⟩
    rw [List.flatMap_cons, List.append_assoc, hq, hp']
    simp

theorem readString_letters_pair {ls : List Letter} {cs : List Char}
    (h : List.Forall₂ (fun l c => l.value? = some c) ls cs) (hpair : ls.any Letter.isPair = true)
    (done : List Char) (p : Place) (rest : List Char) :
    readString '"' done p (ls.flatMap Letter.chars ++ rest) = .error .invalidEscape := by
  induction h generalizing done p with
  | nil => cases hpair
  | @cons l c ls cs hl _ ih =>
    rw [List.flatMap_cons, List.append_assoc]
    cases hfirst : l.isPair with
    | true => exact readString_pair hl hfirst done p _
    | false =>
      rw [List.any_cons, hfirst, Bool.false_or] at hpair
      obtain ⟨q, hq⟩ := readString_spelled hl hfirst done p (ls.flatMap Letter.chars ++ rest)
      rw [hq]
      exact ih hpair (c :: done) q

/-- A string between quotes is a token for the string. -/
theorem prints_spelled {ls : List Letter} {s : String} (h : Letter.Spell ls s)
    (hpair : ls.any Letter.isPair = false) : Prints (Letter.quoted ls) [.string s] := by
  refine Yields.prints fun rest _ => ?_
  rw [Letter.quoted, List.cons_append, List.append_assoc]
  refine .of_readToken ⟨by decide, by decide⟩ (by simp) (by simp; omega) fun p => ?_
  obtain ⟨p', hp'⟩ := readString_letters h hpair [] (p.after '"') rest
  exact ⟨p', by simp [readToken, hp']⟩

/-! ## Numbers -/

theorem prints_numeral {u : Numeral} {n : Json.Number} (h : u.Denotes n) :
    Prints u.chars u.expression.kinds := by
  have hdigital := u.plain.digital
  have hbody : Prints u.body [.number u.unsigned] := by
    refine Yields.prints fun rest hrest => ?_
    have hspan := spanNumber_bodyWith hdigital u.plus u.mark_cases hrest
    have hnumber := Numeral.number?_body h
    obtain ⟨d, ds, hwhole⟩ := List.exists_cons_of_ne_nil hdigital.whole_ne
    have hd : d.isDigit = true := hdigital.whole d (by simp [hwhole])
    rw [Numeral.body, Json.Number.Written.bodyWith, hwhole, List.cons_append] at hnumber
    rw [Json.Number.Written.bodyWith, hwhole, List.cons_append] at hspan
    rw [Numeral.body, Json.Number.Written.bodyWith, hwhole, List.cons_append]
    exact yields_number hd hspan hnumber
  rw [Numeral.chars, Numeral.expression]
  cases u.written.negative
  · exact hbody
  · exact hbody.after_symbol (s := .minus) (by simp)

/-! ## Tokens with blanks between them -/

/-- A text that is some tokens, with blanks behind them, in front of everything that does not run
into its last one. -/
structure Tokenizes (cs : List Char) (ks : List TokenKind) : Prop where
  nonempty : ks ≠ []
  scans : ∀ rest, Delimited rest →
    ∃ bs, (∀ c ∈ bs, Unicode.isWhiteSpace c = true) ∧ Scans (cs ++ rest) ks (bs ++ rest)

theorem Prints.tokenizes {cs : List Char} {ks : List TokenKind} (h : Prints cs ks) :
    Tokenizes cs ks :=
  ⟨h.nonempty, fun rest hrest => ⟨[], by simp, h.scans rest hrest⟩⟩

namespace Tokenizes

variable {as cs : List Char} {js ks : List TokenKind}

theorem after_symbol {s : Symbol} (hs : s ≠ .dot) (h : Tokenizes cs ks) :
    Tokenizes (s.char :: cs) (.symbol s :: ks) := by
  refine ⟨by simp, fun rest hrest => ?_⟩
  obtain ⟨bs, hbs, hscan⟩ := h.scans rest hrest
  exact ⟨bs, hbs, scans_symbol hs hscan⟩

theorem after_blanks (h : Tokenizes cs ks) {bs : List Char}
    (hbs : ∀ c ∈ bs, Unicode.isWhiteSpace c = true) : Tokenizes (bs ++ cs) ks := by
  refine ⟨h.nonempty, fun rest hrest => ?_⟩
  obtain ⟨gap, hgap, hscan⟩ := h.scans rest hrest
  obtain ⟨k, ks, rfl⟩ := List.exists_cons_of_ne_nil h.nonempty
  refine ⟨gap, hgap, ?_⟩
  rw [List.append_assoc]
  exact hscan.blanks hbs

theorem before_blanks (h : Tokenizes cs ks) (b : Blanks) : Tokenizes (cs ++ b.chars) ks := by
  refine ⟨h.nonempty, fun rest hrest => ?_⟩
  obtain ⟨gap, hgap, hscan⟩ := h.scans (b.chars ++ rest) (delimited_blanks b hrest)
  refine ⟨gap ++ b.chars, ?_, by rwa [List.append_assoc, List.append_assoc]⟩
  intro c hc
  exact (List.mem_append.mp hc).elim (hgap c) (isWhiteSpace_blanks b c)

/-- A text in front of another one that it does not run into. -/
theorem append (h : Tokenizes as js) (h' : Tokenizes cs ks)
    (hcs : ∀ rest, Delimited (cs ++ rest)) : Tokenizes (as ++ cs) (js ++ ks) := by
  refine ⟨by simp [h.nonempty], fun rest hrest => ?_⟩
  obtain ⟨gap, hgap, hscan⟩ := h.scans (cs ++ rest) (hcs rest)
  obtain ⟨bs, hbs, hrest⟩ := h'.scans rest hrest
  -- the blanks behind the first text stand in front of a token of the second one
  obtain ⟨k, ks, rfl⟩ := List.exists_cons_of_ne_nil h'.nonempty
  refine ⟨bs, hbs, ?_⟩
  rw [List.append_assoc]
  exact hscan.append (hrest.blanks hgap)

end Tokenizes

/-! ## Codes that stand for nothing -/

/-- Reading a text meets a code that stands for no character. -/
def Breaks (cs : List Char) : Prop :=
  ∀ rest, ∃ ks mid, Scans (cs ++ rest) ks mid
    ∧ ∀ p, ∃ q, nextToken ⟨p, mid⟩ = .error (q, .invalidEscape)

theorem breaks_spelled {ls : List Letter} {s : String} (h : Letter.Spell ls s)
    (hpair : ls.any Letter.isPair = true) : Breaks (Letter.quoted ls) := by
  refine fun rest => ⟨[], _, .nil _, fun p => ⟨p, ?_⟩⟩
  have hread := readString_letters_pair h hpair [] (p.after '"') ('"' :: rest)
  rw [Letter.quoted, List.cons_append, List.append_assoc]
  simp only [nextToken, skip_solid (c := '"') ⟨by decide, by decide⟩]
  simp [readToken, hread]

namespace Breaks

variable {as cs : List Char} {js : List TokenKind}

theorem append (h : Breaks as) (cs : List Char) : Breaks (as ++ cs) := by
  intro rest
  rw [List.append_assoc]
  exact h (cs ++ rest)

theorem after_symbol {s : Symbol} (hs : s ≠ .dot) (h : Breaks cs) : Breaks (s.char :: cs) := by
  intro rest
  obtain ⟨ks, mid, hscan, hflaw⟩ := h rest
  exact ⟨.symbol s :: ks, mid, scans_symbol hs hscan, hflaw⟩

theorem after_blanks (h : Breaks cs) {bs : List Char}
    (hbs : ∀ c ∈ bs, Unicode.isWhiteSpace c = true) : Breaks (bs ++ cs) := by
  intro rest
  rw [List.append_assoc]
  obtain ⟨ks, mid, hscan, hflaw⟩ := h rest
  cases ks with
  | cons k ks => exact ⟨k :: ks, mid, hscan.blanks hbs, hflaw⟩
  | nil =>
    -- the flaw is met at once, behind the blanks
    cases hscan
    refine ⟨[], _, .nil _, fun p => ?_⟩
    obtain ⟨p', hp'⟩ := nextToken_blanks hbs p (cs ++ rest)
    rw [hp']
    exact hflaw p'

/-- A text in front of another one that it does not run into. -/
theorem behind (h : Breaks cs) (has : Tokenizes as js)
    (hcs : ∀ rest, Delimited (cs ++ rest)) : Breaks (as ++ cs) := by
  intro rest
  obtain ⟨gap, hgap, hscan⟩ := has.scans (cs ++ rest) (hcs rest)
  obtain ⟨ks, mid, hrest, hflaw⟩ := h.after_blanks hgap rest
  rw [List.append_assoc] at hrest ⊢
  exact ⟨js ++ ks, mid, hscan.append hrest, hflaw⟩

end Breaks

/-! ## Keys and members -/

theorem chars_key (key : Key) (cs : List Char) :
    key.chars ++ cs
      = key.before.chars ++ (Letter.quoted key.letters ++ (key.behind.chars ++ ':' :: cs)) := by
  simp [Key.chars]

theorem delimited_colon (key : Key) (cs rest : List Char) :
    Delimited (key.behind.chars ++ ':' :: cs ++ rest) := by
  rw [List.append_assoc]
  exact delimited_blanks key.behind (.cons (by decide))

theorem Tokenizes.keyed {cs : List Char} {ks : List TokenKind} (h : Tokenizes cs ks) {key : Key}
    {k : String} (hkey : Letter.Spell key.letters k)
    (hpair : key.letters.any Letter.isPair = false) :
    Tokenizes (key.chars ++ cs) (.string k :: .symbol .colon :: ks) := by
  rw [chars_key]
  have hcolon : Tokenizes (':' :: cs) (.symbol .colon :: ks) :=
    h.after_symbol (s := .colon) (by simp)
  have hvalue := hcolon.after_blanks (isWhiteSpace_blanks key.behind)
  have hquoted := (prints_spelled hkey hpair).tokenizes
  exact (hquoted.append hvalue (delimited_colon key cs)).after_blanks
    (isWhiteSpace_blanks key.before)

theorem Breaks.key {key : Key} {k : String} (hkey : Letter.Spell key.letters k)
    (hpair : key.letters.any Letter.isPair = true) (cs : List Char) :
    Breaks (key.chars ++ cs) := by
  rw [chars_key]
  exact ((breaks_spelled hkey hpair).append _).after_blanks (isWhiteSpace_blanks key.before)

theorem Breaks.keyed {cs : List Char} (h : Breaks cs) {key : Key} {k : String}
    (hkey : Letter.Spell key.letters k) (hpair : key.letters.any Letter.isPair = false) :
    Breaks (key.chars ++ cs) := by
  rw [chars_key]
  have hcolon : Breaks (':' :: cs) := h.after_symbol (s := .colon) (by simp)
  have hvalue := hcolon.after_blanks (isWhiteSpace_blanks key.behind)
  have hquoted := (prints_spelled hkey hpair).tokenizes
  exact (hvalue.behind hquoted (delimited_colon key cs)).after_blanks
    (isWhiteSpace_blanks key.before)

/-- Members do not run into what is behind them. -/
theorem delimited_comma {α : Type} {members : List α} {cs : List Char}
    (h : members = [] → ∀ rest, Delimited (cs ++ rest)) (rest : List Char) :
    Delimited (comma members ++ cs ++ rest) := by
  cases members with
  | nil => exact h rfl rest
  | cons _ _ => exact .cons (by decide)

theorem delimited_items (items : List Phrase) (rest : List Char) :
    Delimited (comma items ++ (itemChars items ++ [']']) ++ rest) := by
  refine delimited_comma ?_ rest
  rintro rfl rest
  exact .cons (by decide)

theorem delimited_fields (fields : List (Key × Phrase)) (rest : List Char) :
    Delimited (comma fields ++ (fieldChars fields ++ ['\x7d']) ++ rest) := by
  refine delimited_comma ?_ rest
  rintro rfl rest
  exact .cons (by decide)

theorem Tokenizes.after_comma {cs : List Char} {ks : List TokenKind} (h : Tokenizes cs ks)
    {α β : Type} {as : List α} {bs : List β} (hsame : as.isEmpty = bs.isEmpty) :
    Tokenizes (comma as ++ cs) (separator false bs ++ ks) := by
  rw [comma, separator, hsame, Bool.not_false, Bool.and_true]
  cases bs.isEmpty
  · exact h.after_symbol (s := .comma) (by simp)
  · exact h

theorem Breaks.after_comma {cs : List Char} (h : Breaks cs) {α : Type} (as : List α) :
    Breaks (comma as ++ cs) := by
  cases as with
  | nil => exact h
  | cons _ _ => exact h.after_symbol (s := .comma) (by simp)

/-! ## Texts -/

theorem isEmpty_itemExpressions (items : List Phrase) :
    items.isEmpty = (itemExpressions items).isEmpty := by
  cases items <;> rfl

theorem isEmpty_fieldExpressions (fields : List (Key × Phrase)) :
    fields.isEmpty = (fieldExpressions fields).isEmpty := by
  cases fields with
  | nil => rfl
  | cons f _ =>
    obtain ⟨key, p⟩ := f
    rfl

mutual

/-- A text without codes of surrogates is the tokens of its expression. -/
theorem tokenizes_phrase (p : Phrase) {v : Json} (h : p.Denotes v) (hpair : p.hasPair = false) :
    Tokenizes p.chars p.expression.kinds :=
  match p, h with
  | .null, .null => (prints_name "null" (by decide)).tokenizes
  | .bool true, .bool _ => (prints_name "true" (by decide)).tokenizes
  | .bool false, .bool _ => (prints_name "false" (by decide)).tokenizes
  | .number _, .number h => (prints_numeral h).tokenizes
  | .string ls, .string h => by
    have hquoted := (prints_spelled h hpair).tokenizes
    rw [← Letter.text_of_spell h] at hquoted
    exact hquoted
  | .array gap items, .array _ h => by
    have hitems := tokenizes_items items h hpair
    exact (hitems.after_blanks (isWhiteSpace_blanks gap)).after_symbol (s := .leftBracket) (by simp)
  | .object gap fields, .object _ h => by
    have hfields := tokenizes_fields fields h hpair
    exact (hfields.after_blanks (isWhiteSpace_blanks gap)).after_symbol (s := .leftBrace) (by simp)
  | .spaced before p behind, .spaced _ _ h =>
    ((tokenizes_phrase p h hpair).before_blanks behind).after_blanks (isWhiteSpace_blanks before)
termination_by structural p

theorem tokenizes_items (items : List Phrase) {vs : List Json} (h : ItemsDenote items vs)
    (hpair : itemsHavePair items = false) :
    Tokenizes (itemChars items ++ [']'])
      (Expression.itemKinds false (itemExpressions items) ++ [.symbol .rightBracket]) :=
  match items, h with
  | [], .nil => ⟨by simp, fun rest _ => ⟨[], by simp,
      scans_symbol (s := .rightBracket) (by simp) (.nil rest)⟩⟩
  | p :: rest, .cons h hrest => by
    rw [itemsHavePair, Bool.or_eq_false_iff] at hpair
    have hfirst := tokenizes_phrase p h hpair.1
    have hothers := (tokenizes_items rest hrest hpair.2).after_comma (isEmpty_itemExpressions rest)
    have hall := hfirst.append hothers (delimited_items rest)
    simpa [itemChars, itemExpressions, Expression.itemKinds] using hall
termination_by structural items

theorem tokenizes_fields (fields : List (Key × Phrase)) {fs : List (String × Json)}
    (h : FieldsDenote fields fs) (hpair : fieldsHavePair fields = false) :
    Tokenizes (fieldChars fields ++ ['\x7d'])
      (Expression.fieldKinds false (fieldExpressions fields) ++ [.symbol .rightBrace]) :=
  match fields, h with
  | [], .nil => ⟨by simp, fun rest _ => ⟨[], by simp,
      scans_symbol (s := .rightBrace) (by simp) (.nil rest)⟩⟩
  | (key, p) :: rest, .cons hkey h hrest => by
    rw [fieldsHavePair, Bool.or_eq_false_iff, Bool.or_eq_false_iff] at hpair
    have hfirst := tokenizes_phrase p h hpair.1.2
    have hothers :=
      (tokenizes_fields rest hrest hpair.2).after_comma (isEmpty_fieldExpressions rest)
    have hall := (hfirst.append hothers (delimited_fields rest)).keyed hkey hpair.1.1
    rw [← Letter.text_of_spell hkey] at hall
    simpa [fieldChars, fieldExpressions, Expression.fieldKinds] using hall
termination_by structural fields

end

mutual

/-- Reading a text with codes of surrogates meets the first of them. -/
theorem breaks_phrase (p : Phrase) {v : Json} (h : p.Denotes v) (hpair : p.hasPair = true) :
    Breaks p.chars :=
  match p, h with
  | .string _, .string h => breaks_spelled h hpair
  | .array gap items, .array _ h =>
    ((breaks_items items h hpair).after_blanks (isWhiteSpace_blanks gap)).after_symbol
      (s := .leftBracket) (by simp)
  | .object gap fields, .object _ h =>
    ((breaks_fields fields h hpair).after_blanks (isWhiteSpace_blanks gap)).after_symbol
      (s := .leftBrace) (by simp)
  | .spaced before p behind, .spaced _ _ h =>
    ((breaks_phrase p h hpair).append behind.chars).after_blanks (isWhiteSpace_blanks before)
termination_by structural p

theorem breaks_items (items : List Phrase) {vs : List Json} (h : ItemsDenote items vs)
    (hpair : itemsHavePair items = true) : Breaks (itemChars items ++ [']']) :=
  match items, h with
  | p :: rest, .cons h hrest => by
    rw [itemChars, List.append_assoc, List.append_assoc]
    cases hfirst : p.hasPair with
    | true => exact (breaks_phrase p h hfirst).append _
    | false =>
      rw [itemsHavePair, hfirst, Bool.false_or] at hpair
      exact ((breaks_items rest hrest hpair).after_comma rest).behind
        (tokenizes_phrase p h hfirst) (delimited_items rest)
termination_by structural items

theorem breaks_fields (fields : List (Key × Phrase)) {fs : List (String × Json)}
    (h : FieldsDenote fields fs) (hpair : fieldsHavePair fields = true) :
    Breaks (fieldChars fields ++ ['\x7d']) :=
  match fields, h with
  | (key, p) :: rest, .cons hkey h hrest => by
    rw [fieldChars, List.append_assoc, List.append_assoc, List.append_assoc]
    cases hletters : key.letters.any Letter.isPair with
    | true => exact .key hkey hletters _
    | false =>
      refine Breaks.keyed ?_ hkey hletters
      cases hfirst : p.hasPair with
      | true => exact (breaks_phrase p h hfirst).append _
      | false =>
        rw [fieldsHavePair, hletters, hfirst, Bool.or_self, Bool.false_or] at hpair
        exact ((breaks_fields rest hrest hpair).after_comma rest).behind
          (tokenizes_phrase p h hfirst) (delimited_fields rest)
termination_by structural fields

end

/-! ## Running -/

/-- A text of JSON that stands for a value is a script for a literal that agrees with the value,
within limits that allow it, unless a character is written with the codes of two surrogates. Such a
text is no script under any limits. -/
theorem run_json [Library] {p : Phrase} {v : Json} (h : p.Denotes v) (bindings : Bindings)
    (limits : Limits) :
    (p.hasPair = false → limits.Allow (String.ofList p.chars) p.expression →
        ∃ c w, run limits bindings (String.ofList p.chars) = .ok c ∧ c.literal? = some w
          ∧ v.agrees w = true)
      ∧ (p.hasPair = true → ∀ c, run limits bindings (String.ofList p.chars) ≠ .ok c) := by
  refine ⟨fun hpair hallow => ?_, fun hpair c hrun => ?_⟩
  · obtain ⟨bs, hbs, hscan⟩ := (tokenizes_phrase p h hpair).scans [] .nil
    rw [List.append_nil, List.append_nil, ← String.toList_ofList (l := p.chars)] at hscan
    obtain ⟨c, hv, w, hw, hagrees⟩ := p.value_expression bindings h
    -- whatever the bindings call, the expression has a meaning where nothing is called `module`
    obtain ⟨_, hstandard, -⟩ := p.value_expression Bindings.standard h
    have hhead := head_ne_module hstandard (by decide)
    exact ⟨c, w, run_text hscan (ends_blanks hbs) hv hallow hhead, hw, hagrees⟩
  · obtain ⟨-, -, -, -, -, place, hfinished⟩ := run_sound hrun
    obtain ⟨ks, mid, hscan, hflaw⟩ := breaks_phrase p h hpair []
    rw [List.append_nil, ← String.toList_ofList (l := p.chars)] at hscan
    obtain ⟨place', hflawed⟩ := hscan.ofScript_flawed hflaw
    rw [hflawed] at hfinished
    cases hfinished

section Simple

attribute [local instance] Library.simple

theorem run_json_escapes :
    (∃ c w, run {} Bindings.standard "[-0, \"\\u00e9\"]" = .ok c ∧ c.literal? = some w
        ∧ (Json.array [.number (.float ⟨true, 0, by decide⟩), .string "é"]).agrees w = true)
      ∧ ∀ c, run {} Bindings.standard "\"\\ud83d\\ude00\"" ≠ .ok c := by
  let gap : Blanks := ⟨[], by simp⟩
  let zero : Numeral := ⟨⟨true, ['0'], none, none⟩, Json.plain_toDigits true 0, false, false⟩
  let accent : Letter := .code ⟨'0', '0', 'e', '9'⟩
  let face : Letter := .pair ⟨'d', '8', '3', 'd'⟩ ⟨'d', 'e', '0', '0'⟩
  let items : Phrase :=
    .array gap [.number zero, .spaced ⟨[' '], by simp [isBlank]⟩ (.string [accent]) gap]
  have hzero : zero.Denotes (.float ⟨true, 0, by decide⟩) := .nearest rfl
  have haccent : Letter.Spell [accent] "é" :=
    show List.Forall₂ _ [accent] ['é'] from .cons rfl .nil
  have hface : Letter.Spell [face] "😀" := show List.Forall₂ _ [face] ['😀'] from .cons rfl .nil
  have hitems : items.Denotes (.array [.number (.float ⟨true, 0, by decide⟩), .string "é"]) :=
    .array _ (.cons (.number hzero) (.cons (.spaced _ _ (.string haccent)) .nil))
  exact ⟨(run_json hitems Bindings.standard {}).1 rfl (by decide),
    (run_json (.string hface) Bindings.standard {}).2 rfl⟩

end Simple

/-- Reading JSON takes the codes of two surrogates together. -/
example : Json.parse? "\"\\ud83d\\ude00\"" = some (.string "😀") := by decide +kernel

end HttpContract.Script
