import HttpContract.Contract.Compile
import HttpContract.Proofs.Constraint.Reread
import HttpContract.Proofs.Random

/-!
# Contract — what compiling keeps

A contract that was compiled has normal parts: its identifier is not empty, its methods are in
capital letters, its bodies are declared ones, and all parts are trees that scripts mean
(`canonical_ofConstraint`). `Contract.settled` is what is read back from its canonical script
(`compileWith_script`): the same contract, its parts being settled, but that a body which settles to
null or the empty text is no longer declared.
-/

namespace HttpContract

open Constraint (FieldsWith ScriptedFields settledFields settledFields_eq_map)
open Script (Bindings Expression Limits)

variable {sides : Sidedness → Prop} {s : Sidedness}

/-! ## Normal parts -/

/-- Methods in capital letters, at least one. -/
def Methods.Capital : Methods → Prop
  | .one m => m.toUpper = m
  | .anyOf ms => ms ≠ [] ∧ ∀ m ∈ ms, m.toUpper = m

/-- A body that is declared, a tree that scripts mean. -/
structure Constraint.Declared [Library] (sides : Sidedness → Prop) (c : Constraint) : Prop where
  scripted : c.Scripted sides
  declared : Contract.bodyOf c = some c

/-- The requests of a compiled contract. -/
structure RequestRule.Canonical [Library] (sides : Sidedness → Prop) (r : RequestRule) : Prop where
  methods : r.methods.Capital
  path : r.path.Scripted sides
  query : ∀ q ∈ r.query, q.name.Scripted sides ∧ q.value.Scripted sides
  headers : ScriptedFields sides r.headers
  body : ∀ c ∈ r.body, c.Declared sides

/-- The response of a compiled contract. -/
structure ResponseRule.Canonical [Library] (sides : Sidedness → Prop) (r : ResponseRule) :
    Prop where
  status : r.status.Scripted sides
  headers : ScriptedFields sides r.headers
  body : ∀ c ∈ r.body, c.Declared sides

/-- A compiled contract. -/
structure Contract.Canonical [Library] (sides : Sidedness → Prop) (c : Contract) : Prop where
  id_ne : c.id ≠ ""
  request : c.request.Canonical sides
  response : c.response.Canonical sides

/-! ## Parts with a property -/

/-- Requests with methods in capital letters, a declared body and parts that have a property. -/
structure RequestRule.Made (P : Constraint → Prop) (r : RequestRule) : Prop where
  methods : r.methods.Capital
  path : P r.path
  query : ∀ q ∈ r.query, P q.name ∧ P q.value
  headers : FieldsWith P r.headers
  body : ∀ c ∈ r.body, P c ∧ Contract.bodyOf c = some c

/-- A response with a declared body and parts that have a property. -/
structure ResponseRule.Made (P : Constraint → Prop) (r : ResponseRule) : Prop where
  status : P r.status
  headers : FieldsWith P r.headers
  body : ∀ c ∈ r.body, P c ∧ Contract.bodyOf c = some c

theorem RequestRule.Made.canonical [Library] {r : RequestRule}
    (h : r.Made (Constraint.Scripted sides)) :
    r.Canonical sides where
  methods := h.methods
  path := h.path
  query := h.query
  headers := ⟨h.headers.1, h.headers.2⟩
  body c hc := ⟨(h.body c hc).1, (h.body c hc).2⟩

theorem ResponseRule.Made.canonical [Library] {r : ResponseRule}
    (h : r.Made (Constraint.Scripted sides)) :
    r.Canonical sides where
  status := h.status
  headers := ⟨h.headers.1, h.headers.2⟩
  body c hc := ⟨(h.body c hc).1, (h.body c hc).2⟩

namespace Contract

/-! ## Compiling gives normal parts -/

theorem char_toUpper_idem (c : Char) : c.toUpper.toUpper = c.toUpper := by
  unfold Char.toUpper
  by_cases h : 'a'.val ≤ c.val ∧ c.val ≤ 'z'.val
  -- the capital of a small letter is no small letter
  · have hnot : ¬('a'.val ≤ c.val + ('A'.val - 'a'.val)
        ∧ c.val + ('A'.val - 'a'.val) ≤ 'z'.val) := by
      have h1 : ('a'.val).toNat = 97 := rfl
      have h2 : ('z'.val).toNat = 122 := rfl
      have h3 : ('A'.val - 'a'.val).toNat = 4294967264 := rfl
      simp only [UInt32.le_iff_toNat_le, UInt32.toNat_add, h1, h2, h3] at h ⊢
      omega
    simp only [h, and_self, dif_pos]
    rw [dif_neg hnot]
  · simp only [h, dif_neg, not_false_iff]

theorem toUpper_idem (m : String) : m.toUpper.toUpper = m.toUpper := by
  apply String.toList_injective
  simp only [String.toUpper, String.toList_map, List.map_map]
  exact List.map_congr_left fun c _ => char_toUpper_idem c

theorem toUpper_get : "GET".toUpper = "GET" := by
  apply String.toList_injective
  simp [String.toUpper]

theorem filter_nonempty {id : String} (h : id ≠ "") :
    (some id).filter (fun id => !id.isEmpty) = some id := by
  rw [Option.filter_some, if_pos (by simpa using h)]

theorem bodyOf_idem {c d : Constraint} (h : bodyOf c = some d) : d = c ∧ bodyOf d = some d := by
  have hself : d = c := by
    unfold bodyOf at h
    split at h <;> cases h
    rfl
  subst hself
  exact ⟨rfl, h⟩

/-- A body that is given is declared, if it is declared at all. -/
theorem bodyOf_parts {P : Constraint → Prop} {c : Constraint} (h : P c) :
    ∀ d ∈ bodyOf c, P d ∧ bodyOf d = some d := by
  intro d hd
  obtain ⟨rfl, hdeclared⟩ := bodyOf_idem hd
  exact ⟨h, hdeclared⟩

theorem declared_bodyOf [Library] {c : Constraint} (h : c.Scripted sides) :
    ∀ d ∈ bodyOf c, d.Declared sides := fun d hd =>
  ⟨(bodyOf_parts h d hd).1, (bodyOf_parts h d hd).2⟩

theorem methodNames_capital {name : String} {vs : List Json} {ms : List String}
    (h : methodNames name vs = .ok ms) :
    ms.length = vs.length ∧ ∀ m ∈ ms, m.toUpper = m := by
  induction vs generalizing ms with
  | nil =>
    cases h
    simp
  | cons v rest ih =>
    cases v with
    | string m =>
      rw [methodNames] at h
      cases hrest : methodNames name rest with
      | error e => simp [hrest, Except.map] at h
      | ok more =>
        rw [hrest] at h
        cases h
        obtain ⟨hlength, hmore⟩ := ih hrest
        refine ⟨by simp [hlength], ?_⟩
        intro m' hm'
        rcases List.mem_cons.mp hm' with rfl | hm'
        · exact toUpper_idem m
        · exact hmore m' hm'
    | _ => cases h

theorem methodsOf_capital {c : Constraint} {ms : Methods} (h : methodsOf c = .ok ms) :
    ms.Capital := by
  simp only [methodsOf] at h
  split at h
  · cases h
    exact toUpper_idem _
  · rename_i v rest _
    cases hnames : methodNames "request.method" (v :: rest) with
    | error e => simp [hnames, Except.map] at h
    | ok names =>
      rw [hnames] at h
      cases h
      obtain ⟨hlength, hcapital⟩ := methodNames_capital hnames
      refine ⟨?_, hcapital⟩
      rintro rfl
      cases hlength
  · cases h

section Parts

variable {P : Constraint → Prop} (hP : Constraint.Inherited P)
include hP

theorem inherited_field? {key : String} {c d : Constraint} (h : P c)
    (hd : c.field? key = some d) : P d := by
  cases c with
  | object fields => exact (hP.object fields h).2 _ (mem_of_lookup hd)
  | _ => cases hd

theorem queryRules_parts {name : String} {items : List Constraint} {query : List QueryRule}
    (hitems : ∀ c ∈ items, P c) (h : queryRules name items = .ok query) :
    ∀ q ∈ query, P q.name ∧ P q.value := by
  induction items generalizing query with
  | nil =>
    cases h
    simp
  | cons item rest ih =>
    rw [queryRules] at h
    split at h
    · cases h
    · rename_i key hkey
      cases hrest : queryRules name rest with
      | error e => simp [hrest, Except.map] at h
      | ok more =>
        rw [hrest] at h
        cases h
        have hitem := hitems item (by simp)
        -- a value that is left out is null
        have hvalue : P ((item.field? "value").getD (.constant .null)) := by
          cases hfield : item.field? "value" with
          | none => exact hP.constant _ rfl .null
          | some d => exact inherited_field? hP hitem hfield
        intro q hq
        rcases List.mem_cons.mp hq with rfl | hq
        · exact ⟨inherited_field? hP hitem hkey, hvalue⟩
        · exact ih (fun c hc => hitems c (by simp [hc])) hrest q hq

theorem queryOf_parts {c : Constraint} {query : List QueryRule} (hc : P c)
    (h : queryOf c = .ok query) : ∀ q ∈ query, P q.name ∧ P q.value := by
  unfold queryOf at h
  cases c with
  | array items => exact queryRules_parts hP (hP.array items hc) h
  | object fields =>
    cases h
    intro q hq
    obtain ⟨f, hf, rfl⟩ := List.mem_map.mp hq
    exact ⟨hP.constant _ rfl (.string f.1), (hP.object fields hc).2 f hf⟩
  | _ => cases h

theorem fieldsOf_parts {name : String} {c : Constraint} {fields : List (String × Constraint)}
    (hc : P c) (h : fieldsOf name c = .ok fields) : FieldsWith P fields := by
  unfold fieldsOf at h
  split at h
  · cases h
    exact hP.object fields hc
  · cases h
    exact ⟨by simp, by simp⟩
  · cases h

/-- The default requests are those of a contract that declares none. -/
theorem made_request : ({} : RequestRule).Made P where
  methods := toUpper_get
  path := hP.constant _ rfl (.string "/")
  query := by simp
  headers := ⟨by simp, by simp⟩
  body := by simp

theorem made_response : ({} : ResponseRule).Made P where
  status := hP.constant _ rfl (.integer ⟨by decide, by decide⟩)
  headers := ⟨by simp, by simp⟩
  body := by simp

theorem setRequestField_made {r r' : RequestRule} {f : String × Constraint} (hf : P f.2)
    (hr : r.Made P) (h : setRequestField r f = .ok r') : r'.Made P := by
  obtain ⟨hmethods, hpath, hquery, hheaders, hbody⟩ := hr
  unfold setRequestField at h
  split at h
  · obtain ⟨ms, hms, rfl⟩ := map_ok.mp h
    exact ⟨methodsOf_capital hms, hpath, hquery, hheaders, hbody⟩
  · cases h
    exact ⟨hmethods, hf, hquery, hheaders, hbody⟩
  · obtain ⟨query, hq, rfl⟩ := map_ok.mp h
    exact ⟨hmethods, hpath, queryOf_parts hP hf hq, hheaders, hbody⟩
  · obtain ⟨headers, hh, rfl⟩ := map_ok.mp h
    exact ⟨hmethods, hpath, hquery, fieldsOf_parts hP hf hh, hbody⟩
  · cases h
    exact ⟨hmethods, hpath, hquery, hheaders, bodyOf_parts hf⟩
  · cases h
    exact ⟨hmethods, hpath, hquery, hheaders, hbody⟩

theorem setResponseField_made {r r' : ResponseRule} {f : String × Constraint} (hf : P f.2)
    (hr : r.Made P) (h : setResponseField r f = .ok r') : r'.Made P := by
  obtain ⟨hstatus, hheaders, hbody⟩ := hr
  unfold setResponseField at h
  split at h
  · cases h
    exact ⟨hf, hheaders, hbody⟩
  · obtain ⟨headers, hh, rfl⟩ := map_ok.mp h
    exact ⟨hstatus, fieldsOf_parts hP hf hh, hbody⟩
  · cases h
    exact ⟨hstatus, hheaders, bodyOf_parts hf⟩
  · cases h
    exact ⟨hstatus, hheaders, hbody⟩

theorem requestOf_made {c : Constraint} {r : RequestRule} (hc : P c) (h : requestOf c = .ok r) :
    r.Made P := by
  simp only [requestOf, bind_ok] at h
  obtain ⟨fields, hfields, h⟩ := h
  exact foldlM_keeps (made_request hP)
    (fun f hf _ _ => setRequestField_made hP ((fieldsOf_parts hP hc hfields).2 f hf)) h

theorem responseOf_made {c : Constraint} {r : ResponseRule} (hc : P c)
    (h : responseOf c = .ok r) : r.Made P := by
  simp only [responseOf, bind_ok] at h
  obtain ⟨fields, hfields, h⟩ := h
  exact foldlM_keeps (made_response hP)
    (fun f hf _ _ => setResponseField_made hP ((fieldsOf_parts hP hc hfields).2 f hf)) h

theorem setField_made {p p' : Parts} {f : String × Constraint} (hf : P f.2)
    (hp : p.request.Made P ∧ p.response.Made P) (h : setField p f = .ok p') :
    p'.request.Made P ∧ p'.response.Made P := by
  unfold setField at h
  split at h
  · obtain ⟨id, -, rfl⟩ := map_ok.mp h
    exact hp
  · obtain ⟨name, -, rfl⟩ := map_ok.mp h
    exact hp
  · obtain ⟨request, hrequest, rfl⟩ := map_ok.mp h
    exact ⟨requestOf_made hP hf hrequest, hp.2⟩
  · obtain ⟨response, hresponse, rfl⟩ := map_ok.mp h
    exact ⟨hp.1, responseOf_made hP hf hresponse⟩
  · cases h
    exact hp

/-- The parts of the contract of a tree inherit what the tree has. -/
theorem made_ofConstraint {fresh source : String} {exported : Constraint} {c : Contract}
    (hexported : P exported) (h : ofConstraint fresh source exported = .ok c) :
    c.request.Made P ∧ c.response.Made P := by
  cases exported with
  | object fields =>
    simp only [ofConstraint, bind_ok, pure_ok] at h
    obtain ⟨parts, hparts, rfl⟩ := h
    exact foldlM_keeps (P := fun p : Parts => p.request.Made P ∧ p.response.Made P)
      ⟨made_request hP, made_response hP⟩
      (fun f hf _ _ => setField_made hP ((hP.object fields hexported).2 f hf)) hparts
  | _ => cases h

end Parts

theorem canonical_request [Library] : ({} : RequestRule).Canonical sides :=
  (made_request Constraint.inherited_scripted).canonical

theorem canonical_response [Library] : ({} : ResponseRule).Canonical sides :=
  (made_response Constraint.inherited_scripted).canonical

/-- A contract has an identifier if a fresh one is. -/
theorem id_ne_ofConstraint {fresh source : String} {exported : Constraint} {c : Contract}
    (hfresh : fresh ≠ "") (h : ofConstraint fresh source exported = .ok c) : c.id ≠ "" := by
  cases exported with
  | object fields =>
    simp only [ofConstraint, bind_ok, pure_ok] at h
    obtain ⟨parts, -, rfl⟩ := h
    cases hid : parts.id with
    | none => exact hfresh
    | some id =>
      by_cases hempty : id = ""
      · subst hempty
        exact hfresh
      · rw [filter_nonempty hempty]
        exact hempty
  | _ => cases h

/-- The contract of a tree that a script means has normal parts. -/
theorem canonical_ofConstraint [Library] {fresh source : String} {exported : Constraint}
    {c : Contract} (hfresh : fresh ≠ "") (hexported : exported.Scripted sides)
    (h : ofConstraint fresh source exported = .ok c) : c.Canonical sides := by
  obtain ⟨hrequest, hresponse⟩ :=
    made_ofConstraint Constraint.inherited_scripted hexported h
  exact ⟨id_ne_ofConstraint hfresh h, hrequest.canonical, hresponse.canonical⟩

/-! ## Compiled scripts -/

theorem yields_draw_ne : Constraint.Uuid.draw.Yields (· ≠ "") :=
  (Sampler.yields_times (Sampler.yields_below (by decide)) 16).bind fun bytes hbytes => .pure <| by
    intro h
    have hchars : Constraint.Uuid.charsFrom 0 bytes = [] := by
      rw [← String.toList_ofList (l := Constraint.Uuid.charsFrom 0 bytes), h, String.toList_empty]
    cases bytes with
    | nil => cases hbytes.1
    | cons b rest => simp [Constraint.Uuid.charsFrom, Constraint.Uuid.byteDigits] at hchars

/-- A fresh identifier is not empty. -/
theorem draw_ne (draws : Draws) : (Constraint.Uuid.draw.run draws).1 ≠ "" :=
  yields_draw_ne.run draws

variable {limits : Limits} {bindings : Bindings} {fresh source : String} {c : Contract}

/-- Compiling a script only draws a fresh identifier. -/
theorem compile_run [Library] (limits : Limits) (source : String) (bindings : Bindings)
    (draws : Draws) :
    ((compile limits source bindings).run draws).1
      = compileWith limits bindings (Constraint.Uuid.draw.run draws).1 source :=
  Sampler.run_map (fun fresh => compileWith limits bindings fresh source) Constraint.Uuid.draw draws

/-- The contract of a script has normal parts, with two-sided values of the kinds that the script
calls for. -/
theorem compileWith_canonical [Library] (hfresh : fresh ≠ "")
    (hcalls : ∀ name b s, Script.Calls source name → bindings.lookup name = some b →
      b.sidedness? = some s → sides s)
    (h : compileWith limits bindings fresh source = .ok c) : c.Canonical sides := by
  unfold compileWith at h
  split at h
  · rename_i exported hrun
    exact canonical_ofConstraint hfresh (Constraint.scripted_of_run hcalls hrun) h
  · cases h

theorem lookup_standard {name : String} {b : Script.Builtin}
    (h : Bindings.standard.lookup name = some b) : b.label = name := by
  obtain ⟨b', -, hb⟩ := List.mem_map.mp (mem_of_lookup h)
  obtain ⟨rfl, rfl⟩ := Prod.mk.inj hb
  rfl

/-- A script that calls for no one-sided values gives a contract without any. -/
theorem compile_canonical [Library] {draws : Draws}
    (h : ((compile limits source).run draws).1 = .ok c) (hstub : ¬Script.Calls source "stubValue")
    (htest : ¬Script.Calls source "testValue") :
    c.Canonical (· = .both) := by
  rw [compile_run] at h
  refine compileWith_canonical (draw_ne draws) (fun name b s hcall hname hs => ?_) h
  obtain rfl := lookup_standard hname
  cases b with
  | value => exact (Option.some.inj hs).symm
  | stubValue => exact absurd hcall hstub
  | testValue => exact absurd hcall htest
  | _ => cases hs

end Contract

end HttpContract
