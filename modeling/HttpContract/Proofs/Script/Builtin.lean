import HttpContract.Proofs.Script.Literal

/-!
# Script — the calls that make matchers

A matcher is written as a call. `Matcher.builtin` and `Matcher.arguments` are that call as data, and
a matcher is `Matcher.Scripted` if the call makes it. Every function makes only such matchers
(`make_cases`): what it keeps of its arguments is enough to make the matcher again, whatever was
left out or given as null.
-/

namespace HttpContract

open Constraint (Bounds DateRule FakeKind Matcher NumberKind PatternRule Period TextKind)
open Script (Builtin Misuse)

/-! ## Matchers as calls -/

namespace Constraint.Matcher

/-- The values that the call of a matcher is written with. -/
def arguments : Matcher → List Json
  | regex rule => [.string rule.source]
  | number _ bounds => [bounds.toJson]
  | date rule => [rule.options]
  | text none => []
  | text (some kind) => [.object [("type", .string kind.name)]]
  | fake _ => []
  | uuid4 => []
  | anyOf choices => choices
  | notAnyOf choices => choices

/-- The function that makes a matcher. -/
def builtin : Matcher → Builtin
  | regex _ => .regex
  | number .integer _ => .integer
  | number .float _ => .float
  | date _ => .date
  | text _ => .text
  | fake .name => .name
  | fake .email => .email
  | fake .phone => .phone
  | fake .address => .address
  | uuid4 => .uuid4
  | anyOf _ => .anyOf
  | notAnyOf _ => .notAnyOf

theorem label_builtin (m : Matcher) : m.builtin.label = m.kind := by
  cases m with
  | number kind _ => cases kind <;> rfl
  | fake kind => cases kind <;> rfl
  | _ => rfl

theorem chars_eq_call (m : Matcher) : m.chars = call m.kind (commaSeparated m.arguments) := by
  cases m with
  | text kind => cases kind <;> rfl
  | _ => rfl

/-- Values as the arguments of a call. -/
def given (vs : List Json) : List (Option Constraint) := vs.map fun v => some (.ofJson v)

/-- A matcher that its call makes. -/
structure Scripted [Library] (m : Matcher) : Prop where
  arguments : ∀ v ∈ m.arguments, v.Scripted
  made : m.builtin.make (given m.arguments) = .ok (.matcher m)

end Constraint.Matcher

open Constraint.Matcher (given)

namespace Script.Builtin

/-! ## Arguments that are literals -/

theorem literal_ofJson (v : Json) : literal (.ofJson v) = .ok v := by
  simp only [literal, Constraint.literal?_ofJson]

theorem literal_ok {c : Constraint} {v : Json} : literal c = .ok v ↔ c.literal? = some v := by
  unfold literal
  split <;> simp [*]

theorem stringArgument_string (s : String) :
    stringArgument (some (.ofJson (.string s))) = .ok (some s) := by
  simp only [stringArgument, literal_ofJson]

theorem options_object (fields : List (String × Json)) :
    options (some (.ofJson (.object fields))) = .ok fields := by
  simp only [options, literal_ofJson]

theorem stringOption_ok {fields : List (String × Json)} {key : String} {s : Option String} :
    stringOption fields key = .ok s
      ↔ (fields.lookup key = s.map Json.string
        ∨ s = none ∧ fields.lookup key = some .null) := by
  unfold stringOption
  generalize fields.lookup key = found
  split <;> cases s <;> simp_all

theorem numberOption_ok {fields : List (String × Json)} {key : String} {n : Option Json.Number} :
    numberOption fields key = .ok n
      ↔ (fields.lookup key = n.map Json.number
        ∨ n = none ∧ fields.lookup key = some .null) := by
  unfold numberOption
  generalize fields.lookup key = found
  split <;> cases n <;> simp_all

/-- What a script gives as an argument has a literal that a script can hold, if it has one. -/
def Literal (argument : Option Constraint) : Prop :=
  ∀ c ∈ argument, ∀ v, c.literal? = some v → v.Scripted

/-- The options that a script gives are values that it can hold. -/
theorem options_scripted {argument : Option Constraint} {fields : List (String × Json)}
    (hargument : Literal argument) (h : options argument = .ok fields) :
    ∀ f ∈ fields, f.2.Scripted := by
  unfold options at h
  split at h
  · cases h
    simp
  · rename_i c
    split at h
    · cases h
    · cases h
      simp
    · rename_i fields' hliteral
      cases h
      cases hargument c rfl _ (literal_ok.mp hliteral) with
      | object _ hfields => exact hfields
    · cases h

/-! ## Numbers -/

theorem bounds_ok {fields : List (String × Json)} {b : Bounds} :
    bounds fields = .ok b
      ↔ numberOption fields "gt" = .ok b.above ∧ numberOption fields "gte" = .ok b.atLeast
        ∧ numberOption fields "lt" = .ok b.below ∧ numberOption fields "lte" = .ok b.atMost := by
  simp only [bounds, bind_ok, pure_ok]
  constructor
  · rintro ⟨above, h1, atLeast, h2, below, h3, atMost, h4, rfl⟩
    exact ⟨h1, h2, h3, h4⟩
  · rintro ⟨h1, h2, h3, h4⟩
    exact ⟨_, h1, _, h2, _, h3, _, h4, rfl⟩

/-- Limits are read as they are written. -/
theorem bounds_toJson (b : Bounds) : ∃ fields, b.toJson = .object fields
    ∧ bounds fields = .ok b := by
  refine ⟨_, rfl, ?_⟩
  obtain ⟨above, atLeast, below, atMost⟩ := b
  simp only [bounds_ok, numberOption_ok]
  cases above <;> cases atLeast <;> cases below <;> cases atMost <;>
    simp [Bounds.field, List.lookup_cons, List.lookup_nil]

theorem numberOption_scripted {fields : List (String × Json)} {key : String} {n : Json.Number}
    (hfields : ∀ f ∈ fields, f.2.Scripted) (h : numberOption fields key = .ok (some n)) :
    (Json.number n).Scripted := by
  rcases numberOption_ok.mp h with h | ⟨h, -⟩
  · exact hfields _ (mem_of_lookup h)
  · cases h

/-- Limits that a script gives are a value that it can hold. -/
theorem scripted_toJson {fields : List (String × Json)} {b : Bounds}
    (hfields : ∀ f ∈ fields, f.2.Scripted) (h : bounds fields = .ok b) : b.toJson.Scripted := by
  obtain ⟨h1, h2, h3, h4⟩ := bounds_ok.mp h
  have hfield : ∀ key name n, numberOption fields key = .ok n →
      ∀ f ∈ Bounds.field name n, f.2.Scripted := by
    intro key name n hn f hf
    cases n with
    | none => cases hf
    | some n =>
      obtain rfl := List.mem_singleton.mp hf
      exact numberOption_scripted hfields hn
  refine .object ?_ ?_
  · obtain ⟨above, atLeast, below, atMost⟩ := b
    cases above <;> cases atLeast <;> cases below <;> cases atMost <;> simp [Bounds.field]
  · intro f hf
    simp only [List.mem_append] at hf
    rcases hf with ((hf | hf) | hf) | hf
    · exact hfield _ _ _ h1 f hf
    · exact hfield _ _ _ h2 f hf
    · exact hfield _ _ _ h3 f hf
    · exact hfield _ _ _ h4 f hf

theorem makeNumber_scripted [Library] {kind : NumberKind} {argument : Option Constraint}
    {c : Constraint} (hargument : Literal argument) (h : makeNumber kind argument = .ok c) :
    ∃ m : Matcher, c = .matcher m ∧ m.Scripted := by
  simp only [makeNumber, bind_ok, pure_ok] at h
  obtain ⟨fields, hoptions, b, hbounds, rfl⟩ := h
  obtain ⟨written, hwritten, hread⟩ := bounds_toJson b
  refine ⟨.number kind b, rfl, ?_, ?_⟩
  · intro v hv
    obtain rfl := List.mem_singleton.mp hv
    exact scripted_toJson (options_scripted hargument hoptions) hbounds
  · have hmake : makeNumber kind (some (.ofJson b.toJson)) = .ok (.matcher (.number kind b)) := by
      rw [hwritten]
      simp only [makeNumber, bind_ok, pure_ok]
      exact ⟨written, options_object written, b, hread, rfl⟩
    cases kind <;> exact hmake

/-! ## Patterns and queries -/

theorem source_ofSource? [Library] {source : String} {rule : PatternRule}
    (h : PatternRule.ofSource? source = some rule) : rule.source = source := by
  simp only [PatternRule.ofSource?, Option.map_eq_some_iff] at h
  obtain ⟨p, -, rfl⟩ := h
  rfl

theorem makeRegex_scripted [Library] {argument : Option Constraint} {c : Constraint}
    (h : makeRegex argument = .ok c) : ∃ m : Matcher, c = .matcher m ∧ m.Scripted := by
  simp only [makeRegex, bind_ok] at h
  obtain ⟨source, -, h⟩ := h
  cases source with
  | none => cases h
  | some source =>
    simp only at h
    split at h
    · rename_i rule hrule
      obtain rfl := pure_ok.mp h
      refine ⟨.regex rule, rfl, ?_, ?_⟩
      · intro v hv
        obtain rfl := List.mem_singleton.mp hv
        exact .string _
      · show makeRegex (some (.ofJson (.string rule.source))) = _
        simp only [makeRegex, bind_ok]
        refine ⟨some rule.source, stringArgument_string _, ?_⟩
        simp only [source_ofSource? hrule, hrule]
        rfl
    · cases h

theorem expression_parse? {text : String} {e : Extraction} (h : Extraction.parse? text = some e) :
    e.expression = text := by
  simp only [Extraction.parse?, Option.map_eq_some_iff] at h
  obtain ⟨q, -, rfl⟩ := h
  rfl

theorem makeExtraction_ok {argument : Option Constraint} {c : Constraint}
    (h : makeExtraction argument = .ok c) :
    ∃ e : Extraction, c = .extraction e ∧ Extraction.parse? e.expression = some e := by
  simp only [makeExtraction, bind_ok] at h
  obtain ⟨text, -, h⟩ := h
  cases text with
  | none => cases h
  | some text =>
    simp only at h
    split at h
    · rename_i e he
      obtain rfl := pure_ok.mp h
      exact ⟨e, rfl, by rw [expression_parse? he, he]⟩
    · cases h

theorem makeExtraction_expression {e : Extraction}
    (h : Extraction.parse? e.expression = some e) :
    makeExtraction (some (.ofJson (.string e.expression))) = .ok (.extraction e) := by
  simp only [makeExtraction, bind_ok]
  refine ⟨some e.expression, stringArgument_string _, ?_⟩
  simp only [h]
  rfl

/-! ## Dates and filler texts -/

theorem namedOption_name {α : Type} {ofName? : String → Option α} {name : α → String}
    (hname : ∀ x, ofName? (name x) = some x) {fields : List (String × Json)} {key : String}
    {x : Option α} (h : fields.lookup key = (x.map name).map Json.string) :
    namedOption ofName? fields key = .ok x := by
  simp only [namedOption, bind_ok]
  refine ⟨x.map name, stringOption_ok.mpr (.inl h), ?_⟩
  cases x with
  | none => rfl
  | some x =>
    simp only [Option.map_some, hname]
    rfl

theorem readOptional_ok {α β ε : Type} {read : α → Except ε β} {back : β → α}
    (hback : ∀ x y, read x = .ok y → back y = x) {x : Option α} {y : Option β}
    (h : DateRule.readOptional read x = .ok y) : y.map back = x := by
  cases x with
  | none =>
    cases h
    rfl
  | some x =>
    simp only [DateRule.readOptional] at h
    cases hread : read x with
    | error e => simp [hread, Except.map] at h
    | ok y' =>
      rw [hread] at h
      cases h
      rw [Option.map_some, hback x y' hread]

theorem text_readFormat (text : String) (f : Constraint.DateFormat)
    (h : DateRule.readFormat text = .ok f) : f.text = text := by
  unfold DateRule.readFormat at h
  split at h <;> cases h
  rfl

theorem text_readBound (format : Option Constraint.DateFormat) (option text : String)
    (b : Constraint.DateBound) (h : DateRule.readBound format option text = .ok b) :
    b.text = text := by
  simp only [DateRule.readBound] at h
  split at h <;> cases h
  rfl

/-- A condition on dates keeps the options that it was made with as they were written. -/
theorem ofOptions_ok {format earliest latest : Option String} {period : Option Period}
    {r : DateRule} (h : DateRule.ofOptions format period earliest latest = .ok r) :
    r.format.map (·.text) = format ∧ r.period = period ∧ r.earliest.map (·.text) = earliest
      ∧ r.latest.map (·.text) = latest := by
  simp only [DateRule.ofOptions, bind_ok] at h
  obtain ⟨f, hformat, lo, hearliest, hi, hlatest, h⟩ := h
  -- the check of the window does not change the condition
  have hrule : r = ⟨f, period, lo, hi⟩ := by
    split at h
    · cases h
    · cases lo with
      | none =>
        cases h
        rfl
      | some lo =>
        cases hi with
        | none =>
          cases h
          rfl
        | some hi =>
          simp only at h
          split at h
          · cases h
          · cases h
            rfl
  subst hrule
  exact ⟨readOptional_ok text_readFormat hformat, rfl,
    readOptional_ok (text_readBound f "from") hearliest,
    readOptional_ok (text_readBound f "to") hlatest⟩

theorem lookup_options (r : DateRule) : ∃ fields, r.options = .object fields
    ∧ fields.lookup "format" = (r.format.map (·.text)).map Json.string
    ∧ fields.lookup "type" = (r.period.map Period.name).map Json.string
    ∧ fields.lookup "from" = (r.earliest.map (·.text)).map Json.string
    ∧ fields.lookup "to" = (r.latest.map (·.text)).map Json.string := by
  obtain ⟨format, period, earliest, latest⟩ := r
  refine ⟨_, rfl, ?_⟩
  cases format <;> cases period <;> cases earliest <;> cases latest <;>
    simp [DateRule.option, List.lookup_cons, List.lookup_nil]

theorem scripted_options (r : DateRule) : r.options.Scripted := by
  have hoption : ∀ name text, ∀ f ∈ DateRule.option name text, f.2.Scripted := by
    intro name text f hf
    cases text with
    | none => cases hf
    | some text =>
      obtain rfl := List.mem_singleton.mp hf
      exact .string text
  refine .object ?_ ?_
  · obtain ⟨format, period, earliest, latest⟩ := r
    cases format <;> cases period <;> cases earliest <;> cases latest <;> simp [DateRule.option]
  · intro f hf
    simp only [List.mem_append] at hf
    rcases hf with ((hf | hf) | hf) | hf <;> exact hoption _ _ f hf

theorem ofName?_periodName (p : Period) : Period.ofName? p.name = some p := by
  cases p <;> rfl

theorem makeDate_scripted [Library] {argument : Option Constraint} {c : Constraint}
    (h : makeDate argument = .ok c) : ∃ m : Matcher, c = .matcher m ∧ m.Scripted := by
  simp only [makeDate, bind_ok] at h
  obtain ⟨fields, -, period, -, format, -, earliest, -, latest, -, h⟩ := h
  split at h
  · rename_i rule hrule
    obtain rfl := pure_ok.mp h
    refine ⟨.date rule, rfl, ?_, ?_⟩
    · intro v hv
      obtain rfl := List.mem_singleton.mp hv
      exact scripted_options rule
    · show makeDate (some (.ofJson rule.options)) = _
      obtain ⟨rfl, rfl, rfl, rfl⟩ := ofOptions_ok hrule
      obtain ⟨written, hwritten, h1, h2, h3, h4⟩ := lookup_options rule
      rw [hwritten]
      simp only [makeDate, bind_ok]
      refine ⟨written, options_object written, _, namedOption_name ofName?_periodName h2, _,
        stringOption_ok.mpr (.inl h1), _, stringOption_ok.mpr (.inl h3), _,
        stringOption_ok.mpr (.inl h4), ?_⟩
      simp only [hrule]
      rfl
  · cases h

theorem ofName?_textName (k : TextKind) : TextKind.ofName? k.name = some k := by
  cases k <;> rfl

theorem makeText_scripted [Library] {argument : Option Constraint} {c : Constraint}
    (h : makeText argument = .ok c) : ∃ m : Matcher, c = .matcher m ∧ m.Scripted := by
  simp only [makeText, bind_ok, pure_ok] at h
  obtain ⟨fields, -, kind, -, rfl⟩ := h
  refine ⟨.text kind, rfl, ?_, ?_⟩
  · intro v hv
    cases kind with
    | none => cases hv
    | some kind =>
      obtain rfl := List.mem_singleton.mp hv
      refine .object (by simp) ?_
      intro f hf
      obtain rfl := List.mem_singleton.mp hf
      exact .string _
  · cases kind with
    | none => rfl
    | some kind =>
      show makeText (some (.ofJson (.object [("type", .string kind.name)]))) = _
      simp only [makeText, bind_ok, pure_ok]
      exact ⟨_, options_object _, some kind, namedOption_name ofName?_textName rfl, rfl⟩

/-! ## Choices -/

theorem choices_given (vs : List Json) : choices (given vs) = .ok vs := by
  induction vs with
  | nil => rfl
  | cons v vs ih =>
    have hrest : choices (vs.map fun v => some (.ofJson v)) = .ok vs := ih
    simp only [given, List.map_cons, choices, bind_ok, pure_ok]
    exact ⟨v, literal_ofJson v, vs, hrest, rfl⟩

/-- Choices are values that a script can hold. -/
theorem choices_scripted {arguments : List (Option Constraint)} {vs : List Json}
    (harguments : ∀ a ∈ arguments, Literal a) (h : choices arguments = .ok vs) :
    ∀ v ∈ vs, v.Scripted := by
  induction arguments generalizing vs with
  | nil =>
    cases h
    simp
  | cons a rest ih =>
    -- an argument that is left out is null
    obtain ⟨v, more, hscripted, hmore, rfl⟩ :
        ∃ v more, v.Scripted ∧ choices rest = .ok more ∧ v :: more = vs := by
      cases a with
      | none =>
        simp only [choices, bind_ok, pure_ok] at h
        obtain ⟨v, rfl, more, hmore, hvs⟩ := h
        exact ⟨_, more, .null, hmore, hvs⟩
      | some c =>
        simp only [choices, bind_ok, pure_ok] at h
        obtain ⟨v, hv, more, hmore, hvs⟩ := h
        exact ⟨v, more, harguments (some c) (by simp) c rfl v (literal_ok.mp hv), hmore, hvs⟩
    intro w hw
    rcases List.mem_cons.mp hw with rfl | hw
    · exact hscripted
    · exact ih (fun a ha => harguments a (by simp [ha])) hmore w hw

theorem someChoices_ok {arguments : List (Option Constraint)} {vs : List Json} :
    someChoices arguments = .ok vs ↔ choices arguments = .ok vs ∧ vs ≠ [] := by
  simp only [someChoices, bind_ok]
  constructor
  · rintro ⟨ws, hws, h⟩
    cases ws with
    | nil => cases h
    | cons w ws =>
      cases h
      exact ⟨hws, by simp⟩
  · rintro ⟨hvs, hne⟩
    refine ⟨vs, hvs, ?_⟩
    cases vs with
    | nil => exact absurd rfl hne
    | cons v vs => rfl

theorem someChoices_scripted {arguments : List (Option Constraint)} {vs : List Json}
    (harguments : ∀ a ∈ arguments, Literal a) (h : someChoices arguments = .ok vs) :
    (∀ v ∈ vs, v.Scripted) ∧ someChoices (given vs) = .ok vs := by
  obtain ⟨hchoices, hne⟩ := someChoices_ok.mp h
  exact ⟨choices_scripted harguments hchoices, someChoices_ok.mpr ⟨choices_given vs, hne⟩⟩

/-- A function that makes a matcher of its choices makes it again of the choices that are kept. -/
theorem makeChoices_scripted [Library] (wrap : List Json → Matcher) {b : Builtin}
    (hmake : ∀ arguments, b.make arguments
      = (someChoices arguments).map fun vs => .matcher (wrap vs))
    (hwrap : ∀ vs, (wrap vs).arguments = vs ∧ (wrap vs).builtin = b)
    {arguments : List (Option Constraint)} {c : Constraint}
    (harguments : ∀ a ∈ arguments, Literal a) (h : b.make arguments = .ok c) :
    ∃ m : Matcher, c = .matcher m ∧ m.Scripted := by
  rw [hmake] at h
  cases hchoices : someChoices arguments with
  | error e => simp [hchoices, Except.map] at h
  | ok vs =>
    rw [hchoices] at h
    cases h
    obtain ⟨hscripted, hmade⟩ := someChoices_scripted harguments hchoices
    obtain ⟨harguments, hbuiltin⟩ := hwrap vs
    refine ⟨wrap vs, rfl, harguments.symm ▸ hscripted, ?_⟩
    rw [hbuiltin, harguments, hmake, hmade]
    rfl

/-! ## All calls -/

/-- A matcher that is made of nothing. -/
theorem scripted_plain [Library] {m : Matcher} (harguments : m.arguments = [])
    (hmade : m.builtin.make [] = .ok (.matcher m)) : m.Scripted where
  arguments := by simp [harguments]
  made := by
    rw [harguments]
    exact hmade

/-- Which two-sided values a function makes, if it makes any. -/
def sidedness? : Builtin → Option Sidedness
  | value => some .both
  | stubValue => some .stubOnly
  | testValue => some .testOnly
  | _ => none

theorem make_of_apply [Library] {b : Builtin} {arguments : List (Option Constraint)}
    {c : Constraint} (h : b.apply arguments = .ok c) : b.make arguments = .ok c := by
  unfold Builtin.apply at h
  split at h
  · rename_i hmake
    cases h
    exact hmake
  · cases h

/-- A two-sided value has fields of the object that is the first argument. -/
theorem dual_ok {s : Sidedness} {arguments : List (Option Constraint)} {c : Constraint}
    (h : dual s arguments.head?.join = .ok c) :
    ∃ fields, some (.object fields) ∈ arguments
      ∧ c = .dual s (firstField? fields stubKeys) (firstField? fields testKeys) := by
  unfold dual at h
  split at h
  · rename_i fields hjoin
    cases h
    refine ⟨fields, ?_, rfl⟩
    rw [Option.join_eq_some_iff] at hjoin
    exact List.mem_of_mem_head? hjoin
  · cases h

/-- A call makes a matcher that its own call makes again, a query that is read again, or a two-sided
value with fields of the object that it is given. -/
theorem make_cases [Library] {b : Builtin} {arguments : List (Option Constraint)} {c : Constraint}
    (harguments : ∀ a ∈ arguments, Literal a) (h : b.make arguments = .ok c) :
    (∃ m : Matcher, c = .matcher m ∧ m.Scripted)
      ∨ (∃ e : Extraction, b = jsonpath ∧ c = .extraction e
        ∧ Extraction.parse? e.expression = some e)
      ∨ ∃ s fields, b.sidedness? = some s ∧ some (.object fields) ∈ arguments
        ∧ c = .dual s (firstField? fields stubKeys) (firstField? fields testKeys) := by
  have hfirst : Literal arguments.head?.join := by
    cases arguments with
    | nil => simp [Literal]
    | cons a rest => exact harguments a (by simp)
  cases b with
  | regex => exact .inl (makeRegex_scripted h)
  | integer => exact .inl (makeNumber_scripted hfirst h)
  | float => exact .inl (makeNumber_scripted hfirst h)
  | date => exact .inl (makeDate_scripted h)
  | text => exact .inl (makeText_scripted h)
  | name =>
    cases h
    exact .inl ⟨_, rfl, scripted_plain rfl rfl⟩
  | email =>
    cases h
    exact .inl ⟨_, rfl, scripted_plain rfl rfl⟩
  | phone =>
    cases h
    exact .inl ⟨_, rfl, scripted_plain rfl rfl⟩
  | address =>
    cases h
    exact .inl ⟨_, rfl, scripted_plain rfl rfl⟩
  | uuid4 =>
    cases h
    exact .inl ⟨_, rfl, scripted_plain rfl rfl⟩
  | anyOf =>
    exact .inl (makeChoices_scripted .anyOf (fun _ => rfl) (fun _ => ⟨rfl, rfl⟩) harguments h)
  | notAnyOf =>
    exact .inl (makeChoices_scripted .notAnyOf (fun _ => rfl) (fun _ => ⟨rfl, rfl⟩) harguments h)
  | jsonpath =>
    obtain ⟨e, rfl, he⟩ := makeExtraction_ok h
    exact .inr (.inl ⟨e, rfl, rfl, he⟩)
  | value =>
    obtain ⟨fields, hfields, rfl⟩ := dual_ok h
    exact .inr (.inr ⟨.both, fields, rfl, hfields, rfl⟩)
  | stubValue =>
    obtain ⟨fields, hfields, rfl⟩ := dual_ok h
    exact .inr (.inr ⟨.stubOnly, fields, rfl, hfields, rfl⟩)
  | testValue =>
    obtain ⟨fields, hfields, rfl⟩ := dual_ok h
    exact .inr (.inr ⟨.testOnly, fields, rfl, hfields, rfl⟩)

end Script.Builtin

end HttpContract
