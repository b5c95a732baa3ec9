import HttpContract.Proofs.Script.Size

/-!
# Script — texts and places of tokens

One call of `nextToken` passes over blanks and comments (`Skipped`) and reads one token, the text of
which is the token by itself (`Lexeme`). What calls pass over and read, put together, is the text
that they have gone through, and every token has the place of its first character
(`Gives.split`). Calls come to the end of every text or to a flaw in it (`readTokens_gives`).
-/

namespace HttpContract.Script

variable {p : Place} {c : Char} {cs rest gap : List Char} {k : TokenKind} {cursor : Cursor}

/-! ## Places -/

/-- The place behind a text: lines are counted by line ends, columns by the characters behind the
last of them, both from one. -/
def placeBehind (cs : List Char) : Place :=
  ⟨1 + cs.count '\n', 1 + (cs.reverse.takeWhile (· ≠ '\n')).length⟩

theorem placeBehind_concat (cs : List Char) (c : Char) :
    placeBehind (cs ++ [c]) = (placeBehind cs).after c := by
  by_cases hc : c = '\n'
  · subst hc
    simp [placeBehind, Place.after, Nat.add_assoc]
  · simp [placeBehind, Place.after, hc, Nat.add_comm 1]

theorem afterAll_append (p : Place) (as bs : List Char) :
    p.afterAll (as ++ bs) = (p.afterAll as).afterAll bs := List.foldl_append

/-- Going on behind a text leads behind both texts. -/
theorem afterAll_placeBehind (as bs : List Char) :
    (placeBehind as).afterAll bs = placeBehind (as ++ bs) := by
  induction bs generalizing as with
  | nil => rw [List.append_nil]; rfl
  | cons b bs ih =>
    have hstep : (placeBehind as).afterAll (b :: bs) = ((placeBehind as).after b).afterAll bs := rfl
    rw [hstep, ← placeBehind_concat, ih, List.append_assoc]
    rfl

/-- A place never has more lines and columns than there are characters. -/
theorem placeBehind_le (cs : List Char) :
    (placeBehind cs).line + (placeBehind cs).column ≤ cs.length + 2 := by
  induction cs using List.reverseRecOn with
  | nil => simp [placeBehind]
  | append_singleton cs c ih =>
    rw [placeBehind_concat, Place.after, List.length_append]
    have hcolumn : 1 ≤ (placeBehind cs).column := Nat.le_add_right 1 _
    split <;> simp only [List.length_singleton] <;> omega

/-! ## What is skipped -/

/-- Blanks and comments in front of a text. A comment ends with its line, or where its closing marks
stand for the first time; only at the end of a script there may be no line end behind one. -/
inductive Skipped (rest : List Char) : List Char → Prop where
  | nil : Skipped rest []
  | blank {c : Char} {more : List Char} (hc : Unicode.isWhiteSpace c = true) :
    Skipped rest more → Skipped rest (c :: more)
  | line {body more : List Char} (hbody : '\n' ∉ body) :
    Skipped rest more → Skipped rest ('/' :: '/' :: (body ++ '\n' :: more))
  | lastLine {body : List Char} (hbody : '\n' ∉ body) (hrest : rest = []) :
    Skipped rest ('/' :: '/' :: body)
  | block {body more : List Char} (hbody : ¬['*', '/'] <:+: body) :
    Skipped rest more → Skipped rest ('/' :: '*' :: (body ++ '*' :: '/' :: more))

/-- What is left to be skipped of a comment that was begun, and behind it. -/
def SkippedFrom (rest : List Char) : Skipping → List Char → Prop
  | .blanks, gap => Skipped rest gap
  | .line, gap => (∃ body more, gap = body ++ '\n' :: more ∧ '\n' ∉ body ∧ Skipped rest more)
    ∨ ('\n' ∉ gap ∧ rest = [])
  | .block _, gap => ∃ body more, gap = body ++ '*' :: '/' :: more ∧ ¬['*', '/'] <:+: body
    ∧ Skipped rest more

theorem SkippedFrom.line_cons (hc : c ≠ '\n') (h : SkippedFrom rest .line gap) :
    SkippedFrom rest .line (c :: gap) := by
  rcases h with ⟨body, more, rfl, hbody, hmore⟩ | ⟨hgap, hrest⟩
  · exact .inl ⟨c :: body, more, rfl, by simp [hbody, Ne.symm hc], hmore⟩
  · exact .inr ⟨by simp [hgap, Ne.symm hc], hrest⟩

theorem SkippedFrom.block_cons {start : Place} (hc : ¬['*', '/'] <+: c :: gap)
    (h : SkippedFrom rest (.block start) gap) : SkippedFrom rest (.block start) (c :: gap) := by
  obtain ⟨body, more, rfl, hbody, hmore⟩ := h
  refine ⟨c :: body, more, rfl, fun hinside => ?_, hmore⟩
  rw [List.infix_cons_iff] at hinside
  rcases hinside with ⟨behind, hleads⟩ | hinside
  · exact hc ⟨behind ++ '*' :: '/' :: more, by rw [← List.append_assoc, hleads]; rfl⟩
  · exact hbody hinside

/-- What is skipped stands in front of what is left, and leads to its place. -/
theorem skip_ok {mode : Skipping} (h : skip mode p cs = .ok cursor) :
    ∃ gap, cs = gap ++ cursor.text ∧ cursor.place = p.afterAll gap
      ∧ SkippedFrom cursor.text mode gap := by
  fun_induction skip mode p cs with
  | case1 p =>
    cases h
    exact ⟨[], rfl, rfl, .nil⟩
  | case2 p =>
    cases h
    exact ⟨[], rfl, rfl, .inr ⟨List.not_mem_nil, rfl⟩⟩
  | case3 => cases h
  | case4 p rest ih =>
    obtain ⟨gap, rfl, hplace, hgap⟩ := ih h
    refine ⟨'/' :: '/' :: gap, rfl, hplace, ?_⟩
    rcases hgap with ⟨body, more, rfl, hbody, hmore⟩ | ⟨hgap, hrest⟩
    · exact .line hbody hmore
    · exact .lastLine hgap hrest
  | case5 p rest ih =>
    obtain ⟨gap, rfl, hplace, body, more, rfl, hbody, hmore⟩ := ih h
    exact ⟨'/' :: '*' :: (body ++ '*' :: '/' :: more), rfl, hplace, .block hbody hmore⟩
  | case6 p c rest _ _ hblank ih =>
    obtain ⟨gap, rfl, hplace, hgap⟩ := ih h
    exact ⟨c :: gap, rfl, hplace, .blank hblank hgap⟩
  | case7 p c rest =>
    cases h
    exact ⟨[], rfl, rfl, .nil⟩
  | case8 p rest ih =>
    obtain ⟨gap, rfl, hplace, hgap⟩ := ih h
    exact ⟨'\n' :: gap, rfl, hplace, .inl ⟨[], gap, rfl, List.not_mem_nil, hgap⟩⟩
  | case9 p c rest hc ih =>
    obtain ⟨gap, rfl, hplace, hgap⟩ := ih h
    exact ⟨c :: gap, rfl, hplace, hgap.line_cons hc⟩
  | case10 start p rest ih =>
    obtain ⟨gap, rfl, hplace, hgap⟩ := ih h
    exact ⟨'*' :: '/' :: gap, rfl, hplace, [], gap, rfl, by simp, hgap⟩
  | case11 start p c rest hopen ih =>
    obtain ⟨gap, rfl, hplace, hgap⟩ := ih h
    refine ⟨c :: gap, rfl, hplace, hgap.block_cons ?_⟩
    rintro ⟨behind, hleads⟩
    cases hleads
    exact hopen _ rfl rfl

/-! ## Texts of tokens -/

theorem readString_codeChar {quote : Char} {done : List Char} {a b c d x : Char}
    (hcode : codeChar? a b c d = some x) (p : Place) (cs : List Char) :
    readString quote done p ('\\' :: 'u' :: a :: b :: c :: d :: cs)
      = readString quote (x :: done) (p.afterAll ['\\', 'u', a, b, c, d]) cs := by
  rw [readString]
  simp only [hcode]

theorem readString_escaped {quote : Char} {done : List Char} (hu : c ≠ 'u') (hline : c ≠ '\n')
    (p : Place) (cs : List Char) :
    readString quote done p ('\\' :: c :: cs)
      = readString quote (escaped c :: done) (p.afterAll ['\\', c]) cs := by
  rw [readString]
  · exact fun _ _ _ _ _ h => absurd h hu
  · exact hu
  · exact hline

/-- A text is read up to its closing quote, and the characters up to there are the text. -/
theorem readString_ok {quote : Char} {done : List Char} {s : String}
    (h : readString quote done p cs = .ok (s, cursor)) :
    ∃ used, cs = used ++ cursor.text ∧ cursor.place = p.afterAll used
      ∧ ∀ q, readString quote done q used = .ok (s, ⟨q.afterAll used, []⟩) := by
  fun_induction readString quote done p cs with
  | case1 | case2 | case4 | case5 | case8 => cases h
  | case3 done p a b c d cs x hcode ih =>
    obtain ⟨used, rfl, hplace, hused⟩ := ih h
    refine ⟨'\\' :: 'u' :: a :: b :: c :: d :: used, rfl, hplace, fun q => ?_⟩
    rw [readString_codeChar hcode, hused]
    rfl
  | case6 done p cs ih =>
    obtain ⟨used, rfl, hplace, hused⟩ := ih h
    refine ⟨'\\' :: '\n' :: used, rfl, hplace, fun q => ?_⟩
    rw [readString, hused]
    rfl
  | case7 done p c cs _ hu hline ih =>
    obtain ⟨used, rfl, hplace, hused⟩ := ih h
    refine ⟨'\\' :: c :: used, rfl, hplace, fun q => ?_⟩
    rw [readString_escaped hu hline, hused]
    rfl
  | case9 done p cs hslash hline =>
    cases h
    refine ⟨[quote], rfl, rfl, fun q => ?_⟩
    rw [readString, if_neg hline, if_pos rfl]
    · rfl
    · exact hslash
  | case10 done p c cs hslash hline hquote ih =>
    obtain ⟨used, rfl, hplace, hused⟩ := ih h
    refine ⟨c :: used, rfl, hplace, fun q => ?_⟩
    rw [readString, if_neg hline, if_neg hquote, hused]
    · rfl
    · exact hslash

/-- The characters of a number are the same by themselves. -/
theorem spanNumber_split (cs : List Char) :
    cs = (spanNumber cs).1 ++ (spanNumber cs).2
      ∧ spanNumber (spanNumber cs).1 = ((spanNumber cs).1, []) := by
  induction cs using spanNumber.induct with
  | case1 => exact ⟨rfl, rfl⟩
  | case2 c cs hc ih =>
    rw [spanNumber_cons hc]
    refine ⟨congrArg (c :: ·) ih.1, ?_⟩
    rw [spanNumber_cons hc, ih.2]
  | case3 c hc hmark s cs hsign ih =>
    simp only [spanNumber, if_neg hc, if_pos hmark, if_pos hsign, ih.2, and_true]
    exact congrArg (c :: s :: ·) ih.1
  | case4 c hc hmark s cs hsign ih =>
    simp only [spanNumber.eq_def (c :: s :: cs), if_neg hc, if_pos hmark, if_neg hsign]
    refine ⟨congrArg (c :: ·) ih.1, ?_⟩
    -- what follows the mark is no sign in the number by itself either
    cases hmore : (spanNumber (s :: cs)).1 with
    | nil => simp [spanNumber, hc, hmark]
    | cons s' more =>
      rw [hmore] at ih
      obtain rfl : s = s' := (List.cons.inj ih.1).1
      simp only [spanNumber.eq_def (c :: s :: more), if_neg hc, if_pos hmark, if_neg hsign, ih.2]
  | case5 c hc hmark => simp [spanNumber, hc, hmark]
  | case6 c cs hc hmark =>
    have hnone : spanNumber (c :: cs) = ([], c :: cs) := by
      rw [spanNumber.eq_def]
      simp only [if_neg hc, if_neg hmark]
    rw [hnone]
    exact ⟨rfl, rfl⟩

/-- The characters of a name are the same by themselves. -/
theorem span_split (p : Char → Bool) (cs : List Char) :
    cs = (cs.span p).1 ++ (cs.span p).2 ∧ (cs.span p).1.span p = ((cs.span p).1, []) := by
  have htaken : ∀ c ∈ cs.takeWhile p, p c = true := List.all_eq_true.mp List.all_takeWhile
  have hspan : (cs.takeWhile p ++ []).span p = (cs.takeWhile p, []) :=
    span_append htaken (by simp)
  rw [List.append_nil] at hspan
  rw [List.span_eq_takeWhile_dropWhile p cs]
  exact ⟨List.takeWhile_append_dropWhile.symm, hspan⟩

/-- The text of a token, which is the token by itself, wherever it stands. -/
def Lexeme (text : List Char) (k : TokenKind) : Prop :=
  ∃ c cs, text = c :: cs ∧ ∀ p, readToken p c cs = .ok (k, ⟨p.afterAll text, []⟩)

theorem Lexeme.ne_nil (h : Lexeme cs k) : cs ≠ [] := by
  obtain ⟨c, cs, rfl, -⟩ := h
  exact List.cons_ne_nil c cs

/-- A number starts with the same characters by itself. -/
theorem startsNumber_split (hstart : startsNumber c cs = true) :
    startsNumber c (spanNumber cs).1 = true := by
  simp only [startsNumber, Bool.or_eq_true, Bool.and_eq_true, decide_eq_true_eq] at hstart ⊢
  refine hstart.imp_right fun hpoint => ⟨hpoint.1, ?_⟩
  cases cs with
  | nil => exact hpoint.2
  | cons d cs =>
    have hd : d.isDigit = true := hpoint.2
    rw [spanNumber_cons (.inl hd)]
    exact hd

/-- What starts no number in a text starts none by itself. -/
theorem startsNumber_alone (h : ¬startsNumber c cs = true) (hc : c ≠ '.' ∨ rest = []) :
    startsNumber c rest = false := by
  simp only [startsNumber, Bool.or_eq_true, not_or, Bool.not_eq_true] at h
  rcases hc with hc | rfl
  · simp [startsNumber, h.1, hc]
  · simp [startsNumber, h.1]

/-- What is read as a token is its text. -/
theorem readToken_ok (h : readToken p c cs = .ok (k, cursor)) :
    ∃ text, c :: cs = text ++ cursor.text ∧ cursor.place = p.afterAll text ∧ Lexeme text k := by
  unfold readToken at h
  split at h
  case isTrue hquote =>
    split at h
    · rename_i s cursor' hread
      cases h
      obtain ⟨used, rfl, hplace, hused⟩ := readString_ok hread
      refine ⟨c :: used, rfl, hplace, c, used, rfl, fun q => ?_⟩
      simp only [readToken, if_pos hquote, hused]
      rfl
    · cases h
  case isFalse hquote =>
  split at h
  case isTrue hnumber =>
    have hc : c.isDigit = true ∨ c = '.' := by
      simp only [startsNumber, Bool.or_eq_true, Bool.and_eq_true, decide_eq_true_eq] at hnumber
      exact hnumber.imp_right And.left
    obtain ⟨hsplit, hmore⟩ := spanNumber_split cs
    simp only [spanNumber_cons hc] at h
    split at h
    · rename_i n hn
      cases h
      refine ⟨c :: (spanNumber cs).1, congrArg (c :: ·) hsplit, rfl, c, _, rfl, fun q => ?_⟩
      simp only [readToken, if_neg hquote, startsNumber_split hnumber, if_true, spanNumber_cons hc,
        hmore, hn]
    · cases h
  case isFalse hnumber =>
  split at h
  case isTrue hname =>
    have hpoint : c ≠ '.' := by
      rintro rfl
      exact absurd hname (by decide)
    cases h
    obtain ⟨hsplit, hmore⟩ := span_split inIdentifier cs
    refine ⟨c :: (cs.span inIdentifier).1, congrArg (c :: ·) hsplit, rfl, c, _, rfl, fun q => ?_⟩
    simp only [readToken, if_neg hquote, startsNumber_alone hnumber (.inl hpoint),
      Bool.false_eq_true, if_false, if_pos hname, hmore]
    rfl
  case isFalse hname =>
    split at h
    · rename_i s hs
      cases h
      refine ⟨[c], rfl, rfl, c, [], rfl, fun q => ?_⟩
      simp only [readToken, if_neg hquote, startsNumber_alone hnumber (.inr rfl),
        Bool.false_eq_true, if_false, if_neg hname, hs]
      rfl
    · cases h

/-! ## Calls -/

/-- A call that gives a token has skipped what stands in front of it and read its text. -/
theorem nextToken_ok {cursor' : Cursor} {t : Token} (h : nextToken cursor = .ok (t, cursor'))
    (hkind : t.kind ≠ .finish) :
    ∃ gap text, cursor.text = gap ++ (text ++ cursor'.text)
      ∧ t.place = cursor.place.afterAll gap ∧ cursor'.place = cursor.place.afterAll (gap ++ text)
      ∧ Skipped (text ++ cursor'.text) gap ∧ Lexeme text t.kind := by
  unfold nextToken at h
  split at h
  · cases h
  · cases h
    exact absurd rfl hkind
  · rename_i p c cs hskip
    obtain ⟨gap, htext, rfl, hgap⟩ := skip_ok hskip
    split at h
    · cases h
    · rename_i k cursor'' hread
      cases h
      obtain ⟨text, hsplit, hplace, htoken⟩ := readToken_ok hread
      refine ⟨gap, text, ?_, rfl, ?_, ?_, htoken⟩
      · rw [htext, hsplit]
      · rw [hplace, afterAll_append]
      · rwa [← hsplit]

/-- A call that finds the end has skipped all that is left, and finds the end again. -/
theorem nextToken_finish {cursor' : Cursor} {t : Token} (h : nextToken cursor = .ok (t, cursor'))
    (hkind : t.kind = .finish) :
    Skipped [] cursor.text ∧ t.place = cursor.place.afterAll cursor.text
      ∧ nextToken cursor' = .ok (t, cursor') := by
  unfold nextToken at h
  split at h
  · cases h
  · rename_i p hskip
    cases h
    obtain ⟨gap, htext, rfl, hgap⟩ := skip_ok hskip
    rw [List.append_nil] at htext
    rw [htext]
    exact ⟨hgap, rfl, rfl⟩
  · split at h
    · cases h
    · rename_i k cursor'' hread
      cases h
      obtain rfl : k = .finish := hkind
      exact (lexical_readToken hread).elim

/-- Calls one after the other that give tokens, none of them the end. -/
inductive Gives : Cursor → List Token → Cursor → Prop where
  | nil (cursor : Cursor) : Gives cursor [] cursor
  | cons {start next stop : Cursor} {t : Token} {ts : List Token} :
    nextToken start = .ok (t, next) → t.kind ≠ .finish → Gives next ts stop →
      Gives start (t :: ts) stop

/-- What a call goes through: what it skips, and the text of the token that it gives. -/
structure Piece where
  gap : List Char
  text : List Char
  token : Token

/-- The characters of a piece. -/
def Piece.chars (piece : Piece) : List Char := piece.gap ++ piece.text

/-- A piece between texts: it has blanks and comments and then a token by itself, the place of which
is that of its first character. -/
structure Piece.Fits (piece : Piece) (before rest : List Char) : Prop where
  place : piece.token.place = placeBehind (before ++ piece.gap)
  skipped : Skipped (piece.text ++ rest) piece.gap
  lexeme : Lexeme piece.text piece.token.kind

/-- Pieces that fit side by side between texts. -/
def Tiled (before : List Char) (pieces : List Piece) (rest : List Char) : Prop :=
  ∀ first piece last, pieces = first ++ piece :: last →
    piece.Fits (before ++ first.flatMap Piece.chars) (last.flatMap Piece.chars ++ rest)

theorem Tiled.nil (before rest : List Char) : Tiled before [] rest := by
  intro first piece last h
  simp at h

theorem Tiled.cons {before : List Char} {piece : Piece} {pieces : List Piece}
    (h : piece.Fits before (pieces.flatMap Piece.chars ++ rest))
    (hmore : Tiled (before ++ piece.chars) pieces rest) : Tiled before (piece :: pieces) rest := by
  intro first piece' last heq
  cases first with
  | nil =>
    cases heq
    simpa using h
  | cons head first =>
    cases heq
    simpa using hmore first piece' last rfl

/-- What calls go through is made up of pieces. -/
theorem Gives.split {start stop : Cursor} {ts : List Token} (h : Gives start ts stop)
    {before : List Char} (hplace : start.place = placeBehind before) :
    ∃ pieces : List Piece, pieces.map Piece.token = ts
      ∧ start.text = pieces.flatMap Piece.chars ++ stop.text
      ∧ stop.place = placeBehind (before ++ pieces.flatMap Piece.chars)
      ∧ Tiled before pieces stop.text := by
  induction h generalizing before with
  | nil cursor => exact ⟨[], rfl, rfl, by simpa using hplace, .nil before _⟩
  | @cons start next stop t ts hnext hkind hmore ih =>
    obtain ⟨gap, text, htext, htoken, hbehind, hgap, hlexeme⟩ := nextToken_ok hnext hkind
    rw [hplace, afterAll_placeBehind] at htoken hbehind
    obtain ⟨pieces, htokens, hpieces, hstop, htiled⟩ := ih hbehind
    refine ⟨⟨gap, text, t⟩ :: pieces, by simp [htokens], ?_, ?_, .cons ⟨htoken, ?_, hlexeme⟩ htiled⟩
    · simp [htext, hpieces, Piece.chars]
    · simpa [Piece.chars] using hstop
    · rwa [← hpieces]

/-- How a call ends the reading of a script. -/
def Cursor.EndsAs (cursor : Cursor) : Ending → Prop
  | .finished place => ∃ cursor', nextToken cursor = .ok (⟨.finish, place⟩, cursor')
  | .flawed place flaw => nextToken cursor = .error (place, flaw)

/-- A call that gives a token leaves less of the text. -/
theorem nextToken_shorter {cursor' : Cursor} {t : Token} (h : nextToken cursor = .ok (t, cursor'))
    (hkind : t.kind ≠ .finish) : cursor'.text.length < cursor.text.length := by
  obtain ⟨gap, text, htext, -, -, -, hlexeme⟩ := nextToken_ok h hkind
  have hpos : 0 < text.length := List.length_pos_iff.mpr hlexeme.ne_nil
  rw [htext, List.length_append, List.length_append]
  omega

/-- Calls come to an ending, before there were more of them than characters, and one. -/
theorem readTokens_gives (cursor : Cursor) {count : Nat} (h : cursor.text.length < count) :
    ∃ stop, Gives cursor (readTokens count cursor).list stop
      ∧ stop.EndsAs (readTokens count cursor).ending := by
  induction count generalizing cursor with
  | zero => exact absurd h (Nat.not_lt_zero _)
  | succ count ih =>
    rw [readTokens]
    split
    · rename_i hnext
      exact ⟨cursor, .nil cursor, hnext⟩
    · rename_i place cursor' hnext
      exact ⟨cursor, .nil cursor, cursor', hnext⟩
    · rename_i t next hfinish hnext
      have hkind : t.kind ≠ .finish := fun hkind => hfinish t.place (by rw [← hkind])
      have hshorter := nextToken_shorter hnext hkind
      obtain ⟨stop, hcalls, hending⟩ := ih next (by omega)
      exact ⟨stop, .cons hnext hkind hcalls, hending⟩

/-- No call is made without a character for it. -/
theorem Gives.length_le {start stop : Cursor} {ts : List Token} (h : Gives start ts stop) :
    ts.length + stop.text.length ≤ start.text.length := by
  induction h with
  | nil => simp
  | cons hnext hkind _ ih =>
    have hshorter := nextToken_shorter hnext hkind
    rw [List.length_cons]
    omega

end HttpContract.Script
