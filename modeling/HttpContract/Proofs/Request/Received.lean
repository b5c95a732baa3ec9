import HttpContract.Proofs.Json.Shorter
import HttpContract.Proofs.Request.Arrival
import Mathlib

/-!
# Request — when a received request is seen as it was sent

Four parts of a request are seen by its receiver in another way than its sender wrote them. The path
is seen below a base path, headers are seen by their names in small letters, query values are seen
as texts, and a body is seen as what can be read of it. Each of these is seen as it was written
exactly under the condition stated here (`Request.pathBelow_eq_iff`, `Pairs.fields_eq_joined_iff`,
`Form.grouped_eq_iff`, `Request.parsedBody_eq_iff`). For forms, what is written and what is read of
it are put together in `Form.received_form`.
-/

namespace HttpContract

/-! ## Paths -/

namespace Request

/-- What is seen of a path below a base path begins with a slash. -/
theorem pathBelow_append_eq (basePath path : String) :
    pathBelow basePath (basePath ++ path)
      = if path.toList.head? = some '/' then path else "/" ++ path := by
  by_cases h : path.toList.head? = some '/'
  · rw [if_pos h, pathBelow_append basePath h]
  · have hbase : basePath.toList.isPrefixOf (basePath.toList ++ path.toList) = true :=
      List.isPrefixOf_iff_prefix.mpr (List.prefix_append _ _)
    rw [if_neg h]
    simp only [pathBelow, String.toList_append, hbase, if_true, List.drop_left]
    split
    · rename_i rest hrest
      exact absurd (by rw [hrest]; rfl) h
    · refine String.toList_inj.mp ?_
      rw [String.toList_ofList, String.toList_append]
      rfl

/-- The address of a server with a base path is seen as the path below the base path only if it is
nothing but the slash that the path lacks. -/
theorem pathBelow_eq_iff (address basePath path : String) :
    address ++ path = pathBelow basePath (basePath ++ path) ↔
      address = if path.toList.head? = some '/' then "" else "/" := by
  rw [pathBelow_append_eq]
  split
  · exact String.append_eq_right_iff
  · exact String.append_left_inj _

end Request

/-! ## Headers -/

theorem toLower_toLower (s : String) : s.toLower.toLower = s.toLower := by
  refine String.toList_inj.mp ?_
  simp [String.toLower]

/-- Fields of which each is new go behind the known ones. -/
theorem foldl_new {headers : Pairs} (hnames : (headers.map (·.1)).Nodup)
    {add : List (String × Json) → String × String → List (String × Json)}
    (hadd : ∀ h ∈ headers, ∀ fields : List (String × Json), h.1 ∉ fields.map (·.1) →
      add fields h = fields ++ [(h.1, .string h.2)])
    (known : List (String × Json)) (hknown : ∀ h ∈ headers, h.1 ∉ known.map (·.1)) :
    headers.foldl add known = known ++ headers.map fun h => (h.1, .string h.2) := by
  induction headers generalizing known with
  | nil => rw [List.foldl_nil, List.map_nil, List.append_nil]
  | cons h rest ih =>
    rw [List.map_cons, List.nodup_cons] at hnames
    rw [List.foldl_cons, hadd h List.mem_cons_self known (hknown h List.mem_cons_self),
      ih hnames.2 (fun g hg => hadd g (List.mem_cons_of_mem h hg)), List.append_assoc]
    · rfl
    · intro g hg hmem
      rw [List.map_append, List.mem_append] at hmem
      obtain hold | hnew := hmem
      · exact hknown g (List.mem_cons_of_mem h hg) hold
      · exact hnames.1 (List.mem_map.mpr ⟨g, hg, List.mem_singleton.mp hnew⟩)

namespace Request

theorem joinHeader_eq_alter (name value : String) (fields : List (String × Json)) :
    joinHeader name value fields
      = alter name (.string value) (fun v => .string (v.asString?.getD "" ++ ", " ++ value))
        fields := by
  induction fields with
  | nil => rfl
  | cons f rest ih => rw [joinHeader, alter, ih]

/-- How many characters there are in the texts of fields. -/
def textSize (fields : List (String × Json)) : Nat :=
  (fields.map fun f => (f.2.asString?.getD "").length).sum

theorem textSize_cons (name : String) (v : Json) (fields : List (String × Json)) :
    textSize ((name, v) :: fields) = (v.asString?.getD "").length + textSize fields := by
  rw [textSize, List.map_cons, List.sum_cons, textSize]

theorem textSize_string (name value : String) (fields : List (String × Json)) :
    textSize ((name, .string value) :: fields) = value.length + textSize fields :=
  textSize_cons name (.string value) fields

theorem textSize_setField (name value : String) (fields : List (String × Json)) :
    textSize (Json.setField name (.string value) fields) ≤ textSize fields + value.length := by
  induction fields with
  | nil => rw [Json.setField, textSize_string, Nat.add_comm]
  | cons f rest ih =>
    obtain ⟨k, v⟩ := f
    rw [Json.setField]
    split
    · rw [textSize_string, textSize_cons]
      omega
    · rw [textSize_cons, textSize_cons]
      omega

theorem textSize_joinHeader (name value : String) (fields : List (String × Json)) :
    textSize (joinHeader name value fields)
      = textSize fields + value.length + if name ∈ fields.map (·.1) then 2 else 0 := by
  induction fields with
  | nil =>
    rw [joinHeader, textSize_string]
    exact Nat.add_comm _ _
  | cons f rest ih =>
    obtain ⟨k, v⟩ := f
    rw [joinHeader]
    by_cases hk : k = name
    · have hlength : (v.asString?.getD "" ++ ", " ++ value).length
          = (v.asString?.getD "").length + 2 + value.length := by
        rw [String.length_append, String.length_append]
        rfl
      rw [if_pos hk, if_pos (by simp [hk]), textSize_string, textSize_cons, hlength]
      omega
    · have hmem : name ∈ ((k, v) :: rest).map (·.1) ↔ name ∈ rest.map (·.1) := by
        simp [Ne.symm hk]
      rw [if_neg hk, textSize_cons, ih, textSize_cons]
      simp only [hmem]
      omega

end Request

namespace Pairs

open Request (joinHeader joinHeader_eq_alter textSize textSize_joinHeader textSize_setField)

/-- Headers by their names in small letters, as a receiver joins them. -/
def joined (headers : Pairs) : List (String × Json) :=
  headers.foldl (fun fields h => joinHeader h.1.toLower h.2 fields) []

theorem joined_append (headers : Pairs) (h : String × String) :
    joined (headers ++ [h]) = joinHeader h.1.toLower h.2 (joined headers) := by
  rw [joined, List.foldl_append]
  rfl

theorem fields_append (headers : Pairs) (h : String × String) :
    fields (headers ++ [h]) = Json.setField h.1 (.string h.2) (fields headers) := by
  rw [fields, List.foldl_append]
  rfl

theorem mem_keys_joined (headers : Pairs) (key : String) :
    key ∈ headers.joined.map (·.1) ↔ key ∈ headers.map fun h => h.1.toLower := by
  induction headers using List.reverseRecOn with
  | nil => rfl
  | append_singleton rest h ih =>
    rw [joined_append, joinHeader_eq_alter, mem_keys_alter, ih, List.map_append, List.mem_append,
      List.map_cons, List.map_nil, List.mem_singleton]
    exact or_comm

theorem mem_keys_fields (headers : Pairs) (key : String) :
    key ∈ headers.fields.map (·.1) ↔ key ∈ headers.map (·.1) := by
  induction headers using List.reverseRecOn with
  | nil => rfl
  | append_singleton rest h ih =>
    rw [fields_append, Json.setField_eq_alter, mem_keys_alter, ih, List.map_append, List.mem_append,
      List.map_cons, List.map_nil, List.mem_singleton]
    exact or_comm

/-- How many characters there are in the values of headers. -/
def valueSize (headers : Pairs) : Nat := (headers.map fun h => h.2.length).sum

theorem valueSize_append (headers : Pairs) (h : String × String) :
    valueSize (headers ++ [h]) = headers.valueSize + h.2.length := by
  rw [valueSize, List.map_append, List.sum_append]
  rfl

theorem textSize_fields (headers : Pairs) : textSize headers.fields ≤ headers.valueSize := by
  induction headers using List.reverseRecOn with
  | nil => exact Nat.le_refl 0
  | append_singleton rest h ih =>
    have hstep := textSize_setField h.1 h.2 (fields rest)
    rw [fields_append, valueSize_append]
    omega

/-- Joining the values of a repeated name takes up further characters. -/
theorem textSize_joined (headers : Pairs) : headers.valueSize ≤ textSize headers.joined
    ∧ (¬ (headers.map fun h => h.1.toLower).Nodup →
      headers.valueSize < textSize headers.joined) := by
  induction headers using List.reverseRecOn with
  | nil => exact ⟨Nat.le_refl 0, fun h => absurd List.nodup_nil h⟩
  | append_singleton rest h ih =>
    have hstep := textSize_joinHeader h.1.toLower h.2 (joined rest)
    rw [joined_append, valueSize_append]
    simp only [mem_keys_joined] at hstep
    refine ⟨by omega, fun hrepeated => ?_⟩
    by_cases hmem : h.1.toLower ∈ rest.map fun h => h.1.toLower
    · rw [if_pos hmem] at hstep
      omega
    · have hrest : ¬ (rest.map fun h => h.1.toLower).Nodup := by
        intro hnodup
        refine hrepeated ?_
        rw [List.map_append]
        exact nodup_append_singleton.mpr ⟨hmem, hnodup⟩
      have hlt := ih.2 hrest
      omega

/-- Headers are seen by the names they were sent with exactly if these are in small letters and no
two of them are the same. -/
theorem fields_eq_joined_iff (headers : Pairs) : headers.fields = headers.joined ↔
    (∀ h ∈ headers, h.1.toLower = h.1) ∧ (headers.map (·.1)).Nodup := by
  constructor
  · intro heq
    have hsmall : ∀ h ∈ headers, h.1.toLower = h.1 := by
      intro h hmem
      have hkey := (mem_keys_fields headers h.1).mpr (List.mem_map_of_mem hmem)
      rw [heq, mem_keys_joined] at hkey
      obtain ⟨g, -, hg⟩ := List.mem_map.mp hkey
      rw [← hg, toLower_toLower]
    refine ⟨hsmall, not_not.mp fun hrepeated => ?_⟩
    have hnames : (headers.map fun h => h.1.toLower) = headers.map (·.1) :=
      List.map_congr_left hsmall
    have hlt := (textSize_joined headers).2 (hnames ▸ hrepeated)
    have hle := textSize_fields headers
    rw [heq] at hle
    omega
  · rintro ⟨hsmall, hnames⟩
    have hfields : headers.fields = headers.map fun h => (h.1, .string h.2) :=
      foldl_new hnames (fun h _ fields hnew => Json.setField_of_new hnew) [] (by simp)
    have hjoined : headers.joined = headers.map fun h => (h.1, .string h.2) := by
      refine foldl_new hnames (fun h hmem fields hnew => ?_) [] (by simp)
      rw [hsmall h hmem, joinHeader_eq_alter, alter_new hnew]
    rw [hfields, hjoined]

end Pairs

theorem Request.headerFields_eq (r : Request) : r.headerFields = r.headers.joined := rfl

/-! ## Query values and forms -/

namespace Form

/-- What stands for a name in a form: a text or, for a repeated one, at least two texts. -/
def isGroup (v : Json) : Bool := isArriving v && !v.isNull

theorem isGroup_extend {known : Json} (h : isGroup known = true) (value : String) :
    isGroup (extend known value) = true := by
  rw [isGroup, Bool.and_eq_true] at h
  obtain ⟨harriving, hnull⟩ := h
  unfold isArriving at harriving
  split at harriving
  · cases hnull
  · rfl
  · rename_i s t more
    have hall : (more ++ [Json.string value]).all (fun v => v.asString?.isSome) = true := by
      rw [List.all_append, harriving]
      rfl
    exact Bool.and_eq_true_iff.mpr ⟨hall, rfl⟩
  · cases harriving

theorem isGroup_addValue {fields : List (String × Json)} (h : ∀ f ∈ fields, isGroup f.2 = true)
    (name value : String) : ∀ f ∈ addValue name value fields, isGroup f.2 = true := by
  rw [addValue_eq_alter]
  exact forall_alter (P := fun v => isGroup v = true) rfl
    (fun known hknown => isGroup_extend hknown value) h

theorem isGroup_grouped (pairs : List (String × String)) :
    ∀ f ∈ grouped pairs, isGroup f.2 = true := by
  induction pairs using List.reverseRecOn with
  | nil => exact fun f hf => nomatch hf
  | append_singleton rest p ih =>
    rw [grouped, List.foldl_append]
    exact isGroup_addValue ih p.1 p.2

theorem nodup_grouped (pairs : List (String × String)) : ((grouped pairs).map (·.1)).Nodup := by
  induction pairs using List.reverseRecOn with
  | nil => exact List.nodup_nil
  | append_singleton rest p ih =>
    rw [grouped, List.foldl_append, List.foldl_cons, List.foldl_nil, addValue_eq_alter]
    exact nodup_keys_alter ih

/-- Named values are seen as they are exactly if their names differ and each is a text or a list of
at least two texts. -/
theorem grouped_eq_iff (fields : List (String × Json)) :
    grouped (WireRequest.queryPairs fields) = fields ↔
      (fields.map (·.1)).Nodup ∧ ∀ f ∈ fields, isGroup f.2 = true := by
  constructor
  · intro heq
    exact ⟨heq ▸ nodup_grouped _, fun f hf => isGroup_grouped _ f (heq.symm ▸ hf)⟩
  · rintro ⟨hnames, hgroups⟩
    have hboth : ∀ f ∈ fields, isArriving f.2 = true ∧ (!f.2.isNull) = true := by
      intro f hf
      exact Bool.and_eq_true_iff.mp (hgroups f hf)
    rw [grouped_queryPairs hnames fun f hf => (hboth f hf).1]
    exact List.filter_eq_self.mpr fun f hf => (hboth f hf).2

end Form

/-! ## Bodies -/

namespace Request

/-- A form that is seen as it was sent: fields under different names, all as they are grouped. -/
def ReturnsForm (v : Json) : Prop :=
  ∃ fields, v = .object fields ∧ fields ≠ [] ∧ (fields.map (·.1)).Nodup
    ∧ ∀ f ∈ fields, Form.isGroup f.2 = true

/-- A body that is no form and is seen as it was sent: a text that is neither empty nor JSON, or
another value that its text is JSON for. -/
def ReturnsPlain : Json → Prop
  | .string s => s ≠ "" ∧ Json.parse? s = none
  | v => Json.parse? v.text = some v

/-- A body that is seen as it was sent; null, for which nothing is sent, always is. -/
def Returns (headers : Pairs) (v : Json) : Prop :=
  v = .null ∨ if sendsForm headers then ReturnsForm v else ReturnsPlain v

theorem parsedBody_form_iff {r : Request} {v : Json} (hnull : v ≠ .null)
    (hform : sendsForm r.headers = true) (hbody : r.body = WireRequest.formText v) :
    v = r.parsedBody ↔ ReturnsForm v := by
  have hread (fields : List (String × Json)) :
      Form.grouped (Form.parse (WireRequest.formText (.object fields)))
        = Form.grouped (WireRequest.queryPairs fields) := by
    rw [WireRequest.formText, Form.parse_encode]
  rw [parsedBody, hform]
  constructor
  · intro hseen
    split at hseen
    · exact absurd hseen hnull
    · rename_i hempty
      rw [if_pos rfl] at hseen
      generalize hfields : Form.grouped (Form.parse r.body) = fields at hseen
      have htext : r.body = WireRequest.formText (.object fields) := hseen ▸ hbody
      rw [htext, hread, Form.grouped_eq_iff] at hfields
      refine ⟨fields, hseen, ?_, hfields⟩
      rintro rfl
      exact hempty (htext ▸ rfl)
  · rintro ⟨fields, rfl, hne, hgroups⟩
    have hgrouped := (Form.grouped_eq_iff fields).mpr hgroups
    have hempty : r.body.isEmpty = false := by
      rw [Bool.eq_false_iff]
      intro hempty
      -- an empty text has no fields
      rw [← hread, ← hbody, String.isEmpty_iff.mp hempty] at hgrouped
      exact hne hgrouped.symm
    rw [hempty, if_neg Bool.false_ne_true, if_pos rfl, hbody, hread, hgrouped]

theorem parsedBody_plain_iff {r : Request} {v : Json} (hnull : v ≠ .null)
    (hform : sendsForm r.headers = false) (hbody : r.body = v.plainText) :
    v = r.parsedBody ↔ ReturnsPlain v := by
  rw [parsedBody, hform, jsonBody?]
  have hvalue {w : Json} (hw : ∀ s, w ≠ .string s) (htext : r.body = w.text) :
      w = (if r.body.isEmpty = true then Json.null
        else if false = true then .object (Form.grouped (Form.parse r.body))
        else (Json.parse? r.body).getD (.string r.body)) ↔ Json.parse? w.text = some w := by
    rw [htext, Json.text_nonempty, if_neg Bool.false_ne_true, if_neg Bool.false_ne_true]
    cases Json.parse? w.text with
    | none => simpa using hw w.text
    | some read => simpa using eq_comm
  cases v with
  | null => exact absurd rfl hnull
  | string s =>
    have htext : r.body = s := hbody
    rw [htext, ReturnsPlain]
    by_cases hempty : s = ""
    · simp [hempty]
    · have hfilled : s.isEmpty = false := by
        rw [Bool.eq_false_iff]
        exact fun h => hempty (String.isEmpty_iff.mp h)
      rw [hfilled, if_neg Bool.false_ne_true, if_neg Bool.false_ne_true]
      cases hparse : Json.parse? s with
      | none => simp [hempty]
      | some read =>
        have hother : read ≠ .string s := fun h => Json.parse?_ne_string s (h ▸ hparse)
        simp [Ne.symm hother]
  | _ => exact hvalue (by simp) hbody

theorem parsedBody_eq_iff {r : Request} {headers : Pairs} {v : Json}
    (hheaders : r.headers = (WireRequest.encodeBody headers v).1)
    (hbody : r.body = (WireRequest.encodeBody headers v).2.getD "") :
    v = r.parsedBody ↔ Returns headers v := by
  obtain ⟨added, hadded, -, hform⟩ := WireRequest.encodeBody_headers headers v
  rw [hadded] at hheaders
  rw [← hheaders] at hform
  rw [WireRequest.encodeBody_text] at hbody
  by_cases hnull : v = .null
  · subst hnull
    rw [parsedBody, hbody]
    exact iff_of_true rfl (.inl rfl)
  · have hsent : v.isNull = false := by
      cases v with
      | null => exact absurd rfl hnull
      | _ => rfl
    rw [hsent, if_neg Bool.false_ne_true] at hbody
    rw [Returns, or_iff_right hnull]
    by_cases hsends : sendsForm headers = true
    · rw [if_pos hsends] at hbody ⊢
      exact parsedBody_form_iff hnull (hform.trans hsends) hbody
    · rw [if_neg hsends] at hbody ⊢
      exact parsedBody_plain_iff hnull (hform.trans (Bool.eq_false_iff.mpr hsends)) hbody

end Request

/-! ## Forms that are read back -/

namespace Form

theorem exists_texts {items : List Json} (h : items.all (fun v => v.asString?.isSome) = true) :
    ∃ texts : List String, items = texts.map .string := by
  induction items with
  | nil => exact ⟨[], rfl⟩
  | cons v rest ih =>
    rw [List.all_cons, Bool.and_eq_true] at h
    obtain ⟨texts, rfl⟩ := ih h.2
    cases v with
    | string s => exact ⟨s :: texts, rfl⟩
    | _ => cases h.1

theorem all_texts (texts : List String) :
    (texts.map Json.string).all (fun v => v.asString?.isSome) = true := by
  rw [List.all_map]
  exact List.all_eq_true.mpr fun _ _ => rfl

/-- A name stands for a text or for at least two texts. -/
theorem isGroup_iff (v : Json) : isGroup v = true ↔ (∃ s, v = .string s)
    ∨ ∃ texts : List String, 2 ≤ texts.length ∧ v = .array (texts.map .string) := by
  constructor
  · intro h
    rw [isGroup, Bool.and_eq_true] at h
    obtain ⟨harriving, hnull⟩ := h
    unfold isArriving at harriving
    split at harriving
    · cases hnull
    · exact .inl ⟨_, rfl⟩
    · obtain ⟨texts, rfl⟩ := exists_texts harriving
      exact .inr ⟨_ :: _ :: texts, by simp, rfl⟩
    · cases harriving
  · rintro (⟨s, rfl⟩ | ⟨texts, hlength, rfl⟩)
    · rfl
    · match texts, hlength with
      | _ :: _ :: more, _ => exact Bool.and_eq_true_iff.mpr ⟨all_texts more, rfl⟩

/-- What is written as a form is read as what it is. The text of any names and values gives them
back. Under headers that declare a form, an object with fields is sent as the text of its fields and
the headers stay, and the receiver sees the object again, its fields in their order, exactly if each
of them is a text or a list of at least two texts. -/
theorem received_form :
    (∀ pairs, parse (encode pairs) = pairs)
    ∧ ∀ headers, Request.sendsForm headers = true → ∀ fields : List (String × Json), fields ≠ [] →
      (fields.map (·.1)).Nodup → ∃ text,
        WireRequest.encodeBody headers (.object fields) = (headers, some text)
        ∧ text = encode (WireRequest.queryPairs fields)
        ∧ ∀ r : Request, r.headers = headers → r.body = text →
          (r.parsedBody = .object fields ↔ ∀ f ∈ fields, (∃ s, f.2 = .string s)
            ∨ ∃ texts : List String, 2 ≤ texts.length ∧ f.2 = .array (texts.map .string)) := by
  refine ⟨parse_encode, fun headers hform fields hne hnames => ⟨_, ?_, rfl, ?_⟩⟩
  · have hsent : (Json.object fields).isNull = false := rfl
    unfold WireRequest.encodeBody
    rw [hsent, if_neg Bool.false_ne_true, if_pos hform]
    rfl
  · intro r hheaders hbody
    rw [eq_comm, Request.parsedBody_form_iff (by simp) (hheaders ▸ hform) hbody]
    simp only [← isGroup_iff]
    constructor
    · rintro ⟨_, hobject, -, -, hgroups⟩
      cases hobject
      exact hgroups
    · exact fun hgroups => ⟨fields, rfl, hne, hnames, hgroups⟩

theorem sendsForm_capitals :
    Request.sendsForm [("CONTENT-type", "Application/X-WWW-Form-URLencoded")] = true := by
  have hname : "CONTENT-type".toLower = "content-type" := by decide +kernel
  rw [Request.sendsForm, Pairs.header?_cons, if_pos (hname.trans toLower_smallContentType.symm)]
  simp [String.toLower, Request.formType]

/-- Marks of the form itself in a name and in values, an empty name and a repeated one. -/
theorem received_form_marks :
    let headers : Pairs := [("CONTENT-type", "Application/X-WWW-Form-URLencoded")]
    let fields : List (String × Json) :=
      [("a b+c", .string "1%=2&é"), ("", .array [.string "", .string "="])]
    Request.sendsForm headers = true ∧ fields ≠ [] ∧ (fields.map (·.1)).Nodup
      ∧ ∃ text, WireRequest.encodeBody headers (.object fields) = (headers, some text)
        ∧ ({ headers, body := text } : Request).parsedBody = .object fields := by
  intro headers fields
  have hne : fields ≠ [] := by decide
  have hnames : (fields.map (·.1)).Nodup := by decide
  have hgroups : ∀ f ∈ fields, isGroup f.2 = true := by decide
  obtain ⟨text, hsent, -, hread⟩ := received_form.2 headers sendsForm_capitals fields hne hnames
  refine ⟨sendsForm_capitals, hne, hnames, text, hsent, ?_⟩
  exact (hread { headers, body := text } rfl rfl).mpr fun f hf =>
    (isGroup_iff f.2).mp (hgroups f hf)

end Form

end HttpContract
