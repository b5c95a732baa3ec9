import HttpContract.Proofs.Contract.Closed
import HttpContract.Proofs.Request.Form
import HttpContract.WireTest.Template

/-!
# Request — what arrives of a request that was sent

The path that follows a base path arrives if it starts with a slash (`Request.pathBelow_append`),
and a body arrives as it was sent if it is read back (`Request.parsedBody_eq`): forms as forms,
texts that are not JSON as they are, and anything else as JSON. What arrives as a query value is a
text or a list (`Form.isWritten_grouped`).
-/

namespace HttpContract

open Constraint (isWritten)

/-! ## Paths -/

/-- A request as it arrives at a path. -/
def WireRequest.arriving (r : WireRequest) (path : String) : Request :=
  ⟨r.method, path, r.query, r.headers, r.body.getD ""⟩

namespace Request

/-- Below a base path is what follows it, if that starts with a slash. -/
theorem pathBelow_append (basePath : String) {path : String}
    (h : path.toList.head? = some '/') : pathBelow basePath (basePath ++ path) = path := by
  obtain ⟨cs, hcs⟩ := List.head?_eq_some_iff.mp h
  have hbase : basePath.toList.isPrefixOf (basePath.toList ++ path.toList) = true :=
    List.isPrefixOf_iff_prefix.mpr (List.prefix_append _ _)
  simp only [pathBelow, String.toList_append, hbase, if_true, List.drop_left]
  rw [hcs]
  simp only
  rw [← hcs, String.ofList_toList]

end Request

namespace Json

theorem text_ne_slash (v : Json) : v.text.toList.head? ≠ some '/' := by
  obtain ⟨c, cs, hchars, hc⟩ : ∃ c cs, v.chars = c :: cs ∧ c ≠ '/' := by
    cases v with
    | number n =>
      obtain ⟨c, cs, htext, hc⟩ := exists_text n
      refine ⟨c, cs, htext, ?_⟩
      rintro rfl
      exact absurd hc (by decide)
    | bool b => cases b <;> exact ⟨_, _, rfl, by decide⟩
    | array items => cases items <;> exact ⟨_, _, rfl, by decide⟩
    | object fields => cases fields <;> exact ⟨_, _, rfl, by decide⟩
    | _ => exact ⟨_, _, rfl, by decide⟩
  rw [text, String.toList_ofList, hchars]
  simpa using hc

/-- Only a text starts with a slash. -/
theorem eq_string_of_slash {v : Json} (h : v.plainText.toList.head? = some '/') :
    v = .string v.plainText := by
  cases v with
  | null => exact absurd h (by decide)
  | string s => rfl
  | _ => exact absurd h (text_ne_slash _)

theorem text_nonempty (v : Json) : v.text.isEmpty = false := by
  obtain ⟨c, cs, hchars, -⟩ := exists_chars v
  rw [text, hchars]
  simp

end Json

/-! ## Bodies -/

namespace Request

/-- Whether a form gives the value back that it was written for: named values that arrive. -/
def readsForm : Json → Bool
  | .object fields => !fields.isEmpty && fields.all fun f => Form.isArriving f.2 && !f.2.isNull
  | _ => false

/-- Whether the text of a value gives the value back: a text that is neither empty nor JSON, or
another legible value. -/
def readsPlain : Json → Bool
  | .string s => !s.isEmpty && (Json.parse? s).isNone
  | v => v.legible Json.nestingLimit

/-- Whether a value that is sent under some headers is read as what it is. -/
def readsBody (headers : Pairs) (v : Json) : Bool :=
  v.isNull || if sendsForm headers then readsForm v else readsPlain v

theorem sendsForm_json {headers : Pairs} (h : (headers.header? "content-type").isNone = true) :
    sendsForm (headers ++ [("Content-Type", "application/json")]) = false := by
  have hvalue : "application/json".toLower = "application/json" := by decide +kernel
  have hfound : Pairs.header? (headers ++ [("Content-Type", "application/json")]) "content-type"
      = some "application/json" := by
    rw [Pairs.header?_append, Option.isNone_iff_eq_none.mp h, Option.none_or, Pairs.header?_cons,
      toLower_contentType, toLower_smallContentType, if_pos rfl]
  rw [sendsForm, hfound]
  simp only [hvalue]
  rfl

end Request

/-- Encoding adds a content type at most, and none that makes a form of the body. -/
theorem WireRequest.encodeBody_headers (headers : Pairs) (v : Json) :
    ∃ added, (encodeBody headers v).1 = headers ++ added
      ∧ (∀ f ∈ added, f.1.toLower = "content-type")
      ∧ Request.sendsForm (headers ++ added) = Request.sendsForm headers := by
  have hsame : ∃ added : Pairs, headers = headers ++ added
      ∧ (∀ f ∈ added, f.1.toLower = "content-type")
      ∧ Request.sendsForm (headers ++ added) = Request.sendsForm headers :=
    ⟨[], by simp⟩
  unfold encodeBody
  split
  · exact hsame
  · split
    · exact hsame
    · rename_i hform
      split
      · exact hsame
      · split
        · rename_i hmissing
          refine ⟨_, rfl, by simp [toLower_contentType], ?_⟩
          rw [Request.sendsForm_json hmissing, Bool.eq_false_iff.mpr hform]
        · exact hsame

theorem Template.payload_headers (t : Template) : ∃ added, t.payload.1 = t.headers ++ added
    ∧ ∀ f ∈ added, f.1.toLower = "content-type" := by
  unfold payload
  split
  · obtain ⟨added, hadded, hnamed, -⟩ := WireRequest.encodeBody_headers t.headers _
    exact ⟨added, hadded, hnamed⟩
  · exact ⟨[], by simp⟩

theorem WireRequest.encodeBody_text (headers : Pairs) (v : Json) :
    (encodeBody headers v).2 =
      if v.isNull then none
      else if Request.sendsForm headers then some (formText v)
      else some v.plainText := by
  unfold encodeBody
  cases v with
  | null => rfl
  | string s => cases Request.sendsForm headers <;> rfl
  | _ =>
    cases Request.sendsForm headers <;> cases (headers.header? "content-type").isNone <;> rfl

namespace Request

/-- The fields of a form are read back. -/
theorem grouped_formText {fields : List (String × Json)} (hnames : (fields.map (·.1)).Nodup)
    (h : fields.all (fun f => Form.isArriving f.2 && !f.2.isNull) = true) :
    Form.grouped (Form.parse (WireRequest.formText (.object fields))) = fields := by
  rw [List.all_eq_true] at h
  simp only [Bool.and_eq_true] at h
  rw [WireRequest.formText, Form.parse_encode,
    Form.grouped_queryPairs hnames fun f hf => (h f hf).1]
  exact List.filter_eq_self.mpr fun f hf => (h f hf).2

/-- A form is read back. -/
theorem parsedBody_form {r : Request} {v : Json} (hdistinct : v.Distinct)
    (h : readsForm v = true) (hform : sendsForm r.headers = true)
    (hbody : r.body = WireRequest.formText v) : r.parsedBody = v := by
  cases hdistinct with
  | @object fields hnames _ =>
    rw [readsForm, Bool.and_eq_true, Bool.not_eq_true', List.isEmpty_eq_false_iff] at h
    have hread := grouped_formText hnames h.2
    have hnonempty : r.body.isEmpty = false := by
      rw [Bool.eq_false_iff]
      intro hempty
      -- an empty text has no fields
      rw [← hbody, String.isEmpty_iff.mp hempty] at hread
      exact h.1 hread.symm
    rw [parsedBody, if_neg (by simp [hnonempty]), if_pos hform, hbody, hread]
  | _ => cases h

/-- What is sent as it is or as JSON is read back. -/
theorem parsedBody_plain {r : Request} {v : Json} (hdistinct : v.Distinct) (hnull : v ≠ .null)
    (h : readsPlain v = true) (hform : sendsForm r.headers = false)
    (hbody : r.body = v.plainText) : r.parsedBody = v := by
  rw [parsedBody, hform]
  cases v with
  | null => exact absurd rfl hnull
  | string s =>
    simp only [readsPlain, Bool.and_eq_true, Bool.not_eq_true', Option.isNone_iff_eq_none] at h
    have hs : r.body = s := hbody
    rw [hs, jsonBody?, hs, h.1, h.2]
    rfl
  | _ =>
    have htext : r.body = Json.text _ := hbody
    rw [jsonBody?, htext, Json.text_nonempty, Json.parse?_text hdistinct h]
    rfl

/-- A body that is read back arrives as it was sent. -/
theorem parsedBody_eq {headers : Pairs} {v : Json} (hdistinct : v.Distinct)
    (h : readsBody headers v = true) {r : Request}
    (hheaders : r.headers = (WireRequest.encodeBody headers v).1)
    (hbody : r.body = (WireRequest.encodeBody headers v).2.getD "") : r.parsedBody = v := by
  obtain ⟨added, hadded, -, hform⟩ := WireRequest.encodeBody_headers headers v
  rw [hadded] at hheaders
  rw [← hheaders] at hform
  rw [WireRequest.encodeBody_text] at hbody
  rw [readsBody, Bool.or_eq_true] at h
  by_cases hnull : v.isNull = true
  · rw [if_pos hnull] at hbody
    rw [parsedBody, hbody]
    cases v with
    | null => rfl
    | _ => cases hnull
  · rw [if_neg hnull] at hbody
    rw [or_iff_right hnull] at h
    by_cases hsends : sendsForm headers = true
    · rw [if_pos hsends] at hbody h
      exact parsedBody_form hdistinct h (hform.trans hsends) hbody
    · rw [if_neg hsends] at hbody h
      refine parsedBody_plain hdistinct ?_ h (hform.trans (Bool.eq_false_iff.mpr hsends)) hbody
      rintro rfl
      exact hnull rfl

end Request

/-! ## Query values -/

namespace Form

theorem isWritten_addValue {fields : List (String × Json)}
    (h : ∀ f ∈ fields, isWritten f.2 = true) (name value : String) :
    ∀ f ∈ addValue name value fields, isWritten f.2 = true := by
  have hextend (known : Json) : isWritten (extend known value) = true := by
    cases known <;> rfl
  rw [addValue_eq_alter]
  exact forall_alter (P := fun v => isWritten v = true) rfl (fun known _ => hextend known) h

/-- What is grouped is a text or a list. -/
theorem isWritten_grouped (pairs : List (String × String)) :
    ∀ f ∈ grouped pairs, isWritten f.2 = true :=
  List.foldlRecOn (motive := fun fields : List (String × Json) => ∀ f ∈ fields,
    isWritten f.2 = true) pairs _ (fun _ hf => by cases hf)
    fun _ h p _ => isWritten_addValue h p.1 p.2

end Form

end HttpContract
