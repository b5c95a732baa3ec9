import HttpContract.Proofs.Constraint.Size
import HttpContract.Proofs.Contract.Derive

/-!
# Contract — how much more is written than was compiled

The tree of a contract is written with defaults, with a name and a value for each query value, and
with the identifier as its name if it has none. So there is at most three times as much in it as in
the tree that it was made from, and some more for its fields (`weight_ofConstraint`), and it is at
most one level deeper (`depth_ofConstraint`).
-/

namespace HttpContract

open Constraint (depth_array_le_iff depth_object_le_iff fieldsWeight fieldsWeight_append
  fieldsWeight_cons fieldsWeight_nil literal_size node_le_weight ofJson weight_array weight_object)
open Script (Measure)

variable {w : Measure} {n : Nat}

/-! ## Written parts -/

/-- The fields that requests are written as. -/
def RequestRule.written (r : RequestRule) : List (String × Constraint) :=
  [("method", r.methods.toConstraint), ("urlPath", r.path)]
    ++ (if r.query.isEmpty then []
      else [("queryParameters", .array (r.query.map QueryRule.toConstraint))])
    ++ headersField r.headers ++ optionalField "body" r.body

/-- The fields that a response is written as. -/
def ResponseRule.written (r : ResponseRule) : List (String × Constraint) :=
  ("status", r.status) :: headersField r.headers ++ optionalField "body" r.body

namespace Contract

/-- Fields that are not much larger than a tree. -/
structure Within (c : Constraint) (fields : List (String × Constraint)) : Prop where
  weight : ∀ w, fieldsWeight w fields ≤ 3 * c.weight w
  depth : ∀ f ∈ fields, f.2.depth ≤ c.depth + 1

/-- Fields that are not much larger than others and a tree. -/
structure Adds (c : Constraint) (before after : List (String × Constraint)) : Prop where
  weight : ∀ w, fieldsWeight w after ≤ fieldsWeight w before + 3 * c.weight w
  depth : ∀ n, c.depth + 1 ≤ n → (∀ f ∈ before, f.2.depth ≤ n) → ∀ f ∈ after, f.2.depth ≤ n

variable {c : Constraint}

theorem Adds.same (fields : List (String × Constraint)) : Adds c fields fields where
  weight _ := Nat.le_add_right ..
  depth _ _ h := h

/-- Replacing the last fields adds no more than what they are replaced by. -/
theorem Within.adds {new : List (String × Constraint)} (h : Within c new)
    (first old : List (String × Constraint)) : Adds c (first ++ old) (first ++ new) where
  weight w := by
    have hnew := h.weight w
    rw [fieldsWeight_append, fieldsWeight_append]
    omega
  depth n hn hbefore := by
    rw [List.forall_mem_append] at hbefore ⊢
    exact ⟨hbefore.1, fun f hf => (h.depth f hf).trans hn⟩

theorem Adds.before {before after : List (String × Constraint)} (h : Adds c before after)
    (last : List (String × Constraint)) : Adds c (before ++ last) (after ++ last) where
  weight w := by
    have hadded := h.weight w
    rw [fieldsWeight_append, fieldsWeight_append]
    omega
  depth n hn hbefore := by
    rw [List.forall_mem_append] at hbefore ⊢
    exact ⟨h.depth n hn hbefore.1, hbefore.2⟩

/-- A single field with a short name. -/
theorem Within.single {key : String} {d : Constraint}
    (hkey : key.utf8ByteSize ≤ Measure.shortSize) (hweight : ∀ w, d.weight w ≤ 3 * c.weight w)
    (hdepth : d.depth ≤ c.depth + 1) : Within c [(key, d)] where
  weight w := by
    rw [fieldsWeight_cons, fieldsWeight_nil, w.text_short hkey, Nat.zero_add]
    exact hweight w
  depth f hf := by
    obtain rfl := List.mem_singleton.mp hf
    exact hdepth

theorem Within.none : Within c [] where
  weight _ := Nat.zero_le _
  depth _ hf := by cases hf

theorem Within.self (key : String) (hkey : key.utf8ByteSize ≤ Measure.shortSize) :
    Within c [(key, c)] :=
  .single hkey (fun _ => Nat.le_mul_of_pos_left _ (by decide)) (Nat.le_succ _)

theorem within_body (c : Constraint) : Within c (optionalField "body" (bodyOf c)) := by
  cases hbody : bodyOf c with
  | none => exact .none
  | some d =>
    obtain ⟨rfl, -⟩ := bodyOf_idem hbody
    exact .self "body" (by decide)

theorem within_headers {name : String} {headers : List (String × Constraint)}
    (h : fieldsOf name c = .ok headers) : Within c (headersField headers) := by
  unfold fieldsOf at h
  split at h
  · cases h
    unfold headersField
    split
    · exact .none
    · exact .self "headers" (by decide)
  · cases h
    exact .none
  · cases h

theorem methodNames_weight {name : String} {vs : List Json} {ms : List String}
    (h : methodNames name vs = .ok ms) :
    (ms.map fun m => (ofJson (.string m)).weight w) = vs.map fun v => (ofJson v).weight w := by
  induction vs generalizing ms with
  | nil =>
    cases h
    rfl
  | cons v rest ih =>
    cases v with
    | string m =>
      rw [methodNames] at h
      obtain ⟨more, hmore, rfl⟩ := map_ok.mp h
      have hfirst : (ofJson (.string m.toUpper)).weight w = (ofJson (.string m)).weight w := by
        rw [Constraint.weight_string, Constraint.weight_string, w.text_toUpper]
      rw [List.map_cons, List.map_cons, ih hmore, hfirst]
    | _ => cases h

theorem anyOf_toConstraint (ms : List String) :
    (Methods.anyOf ms).toConstraint = ofJson (.array (ms.map .string)) := by
  rw [ofJson, Constraint.ofItems_eq_map, List.map_map]
  rfl

theorem within_methods {ms : Methods} (h : methodsOf c = .ok ms) :
    Within c [("method", ms.toConstraint)] := by
  simp only [methodsOf] at h
  split at h
  · rename_i m hliteral
    cases h
    refine .single (by decide) (fun w => ?_) (Nat.zero_le _)
    have hsame : (ofJson (.string m.toUpper)).weight w = (ofJson (.string m)).weight w := by
      rw [Constraint.weight_string, Constraint.weight_string, w.text_toUpper]
    rw [(literal_size hliteral).1, ← hsame]
    exact Nat.le_mul_of_pos_left _ (by decide)
  · rename_i v rest hliteral
    obtain ⟨names, hnames, rfl⟩ := map_ok.mp h
    rw [anyOf_toConstraint]
    refine .single (by decide) (fun w => ?_) ?_
    · have hnames := methodNames_weight (w := w) hnames
      rw [(literal_size hliteral).1, ofJson, ofJson, weight_array, weight_array,
        Constraint.ofItems_eq_map, Constraint.ofItems_eq_map, List.map_map, List.map_map,
        List.map_map]
      simp only [Function.comp_def] at hnames ⊢
      rw [hnames]
      exact Nat.le_mul_of_pos_left _ (by decide)
    · have hdepth : (ofJson (.array (names.map .string))).depth ≤ 0 + 1 := by
        rw [ofJson, depth_array_le_iff, Constraint.ofItems_eq_map]
        simp only [List.forall_mem_map]
        exact fun m _ => Nat.zero_le _
      exact hdepth.trans (Nat.add_le_add_right (Nat.zero_le _) 1)
  · cases h

/-! ### Query values -/

theorem weight_query (name value : Constraint) :
    (QueryRule.toConstraint ⟨name, value⟩).weight w
      = w.node + (name.weight w + value.weight w) := by
  have hname : w.text "name" = 0 := w.text_short (by decide)
  have hvalue : w.text "value" = 0 := w.text_short (by decide)
  simp only [QueryRule.toConstraint, weight_object, fieldsWeight_cons, fieldsWeight_nil, hname,
    hvalue]
  omega

theorem depth_query_le_iff {name value : Constraint} :
    (QueryRule.toConstraint ⟨name, value⟩).depth ≤ n + 1 ↔ name.depth ≤ n ∧ value.depth ≤ n := by
  rw [QueryRule.toConstraint, depth_object_le_iff]
  simp

/-- A query value with its name is at most three times as large as the item that declares it, and no
deeper. -/
theorem size_queryItem {item key : Constraint} (h : item.field? "name" = some key) :
    (QueryRule.toConstraint ⟨key, (item.field? "value").getD (.constant .null)⟩).weight w
        ≤ 3 * item.weight w
      ∧ (QueryRule.toConstraint ⟨key, (item.field? "value").getD (.constant .null)⟩).depth
        ≤ item.depth := by
  cases item with
  | object fields =>
    have hkey : ("name", key) ∈ fields := mem_of_lookup h
    obtain ⟨n, hn, hfields⟩ := Constraint.depth_object fields
    rw [weight_query, weight_object, hn, depth_query_le_iff]
    cases hvalue : (Constraint.object fields).field? "value" with
    | none =>
      have hweight := Constraint.weight_le_of_mem (w := w) hkey
      have hnull : (Constraint.constant .null).weight w = w.node := rfl
      rw [Option.getD_none]
      exact ⟨by omega, hfields _ hkey, Nat.zero_le _⟩
    | some d =>
      have hd : ("value", d) ∈ fields := mem_of_lookup hvalue
      have hweight := Constraint.weight_add_le (w := w) (by decide) hkey hd
      rw [Option.getD_some]
      exact ⟨by omega, hfields _ hkey, hfields _ hd⟩
  | _ => cases h

theorem size_queryRules {name : String} {items : List Constraint} {query : List QueryRule}
    (h : queryRules name items = .ok query) :
    (query.map fun q => q.toConstraint.weight w).sum ≤ 3 * (items.map (Constraint.weight w)).sum
      ∧ ((∀ item ∈ items, item.depth ≤ n) → ∀ q ∈ query, q.toConstraint.depth ≤ n) := by
  induction items generalizing query with
  | nil =>
    cases h
    exact ⟨Nat.zero_le _, fun _ => by simp⟩
  | cons item rest ih =>
    rw [queryRules] at h
    split at h
    · cases h
    · rename_i key hkey
      obtain ⟨more, hmore, rfl⟩ := map_ok.mp h
      obtain ⟨hweight, hdepth⟩ := size_queryItem (w := w) hkey
      obtain ⟨hrestweight, hrestdepth⟩ := ih hmore
      refine ⟨?_, fun hn => ?_⟩
      · rw [List.map_cons, List.map_cons, List.sum_cons, List.sum_cons]
        omega
      · rw [List.forall_mem_cons] at hn ⊢
        exact ⟨hdepth.trans hn.1, hrestdepth hn.2⟩

/-- Values by name are written with their names as values of their own. -/
theorem weight_queryFields (fields : List (String × Constraint)) :
    (fields.map fun f => (QueryRule.toConstraint ⟨.constant (.string f.1), f.2⟩).weight w).sum
      ≤ 3 * fieldsWeight w fields := by
  induction fields with
  | nil => exact Nat.zero_le _
  | cons f rest ih =>
    have hnode := node_le_weight (w := w) f.2
    have hname : (Constraint.constant (.string f.1)).weight w = w.node + w.text f.1 := rfl
    rw [fieldsWeight_cons, List.map_cons, List.sum_cons, weight_query, hname]
    omega

theorem within_query {query : List QueryRule} (h : queryOf c = .ok query) :
    Within c (if query.isEmpty then []
      else [("queryParameters", .array (query.map QueryRule.toConstraint))]) := by
  split
  · exact .none
  unfold queryOf at h
  cases c with
  | array items =>
    have hsize := fun w n => size_queryRules (w := w) (n := n) h
    refine .single (by decide) (fun w => ?_) ?_
    · have hweight := (hsize w 0).1
      rw [weight_array, weight_array, List.map_map]
      simp only [Function.comp_def] at hweight ⊢
      omega
    · rw [depth_array_le_iff]
      simp only [List.forall_mem_map]
      obtain ⟨n, hn, hitems⟩ := Constraint.depth_array items
      rw [hn]
      exact (hsize ⟨0, 0⟩ (n + 1)).2 fun item hitem => (hitems item hitem).trans (Nat.le_succ n)
  | object fields =>
    cases h
    refine .single (by decide) (fun w => ?_) ?_
    · have hfields := weight_queryFields (w := w) fields
      rw [weight_array, weight_object, List.map_map, List.map_map]
      simp only [Function.comp_def]
      omega
    · rw [depth_array_le_iff]
      simp only [List.forall_mem_map]
      obtain ⟨n, hn, hfields⟩ := Constraint.depth_object fields
      rw [hn]
      exact fun f hf => depth_query_le_iff.mpr ⟨Nat.zero_le _, hfields f hf⟩
  | _ => cases h

/-! ## Requests and responses -/

theorem setRequestField_adds {r r' : RequestRule} {f : String × Constraint}
    (h : setRequestField r f = .ok r') : Adds f.2 r.written r'.written := by
  unfold setRequestField at h
  split at h
  · obtain ⟨ms, hms, rfl⟩ := map_ok.mp h
    have hmethods := (within_methods hms).adds [] [("method", r.methods.toConstraint)]
    exact (((hmethods.before [("urlPath", r.path)]).before _).before _).before _
  · cases h
    have hpath := (Within.self (c := f.2) "urlPath" (by decide)).adds
      [("method", r.methods.toConstraint)] [("urlPath", r.path)]
    exact ((hpath.before _).before _).before _
  · obtain ⟨query, hq, rfl⟩ := map_ok.mp h
    exact (((within_query hq).adds _ _).before _).before _
  · obtain ⟨headers, hh, rfl⟩ := map_ok.mp h
    exact ((within_headers hh).adds _ _).before _
  · cases h
    exact (within_body f.2).adds _ _
  · cases h
    exact .same _

theorem setResponseField_adds {r r' : ResponseRule} {f : String × Constraint}
    (h : setResponseField r f = .ok r') : Adds f.2 r.written r'.written := by
  unfold setResponseField at h
  split at h
  · cases h
    have hstatus := (Within.self (c := f.2) "status" (by decide)).adds []
      [("status", r.status)]
    exact (hstatus.before _).before _
  · obtain ⟨headers, hh, rfl⟩ := map_ok.mp h
    exact ((within_headers hh).adds [("status", r.status)] _).before _
  · cases h
    exact (within_body f.2).adds _ _
  · cases h
    exact .same _

theorem sum_fields_le (fields : List (String × Constraint)) :
    (fields.map fun f => 3 * f.2.weight w).sum ≤ 3 * fieldsWeight w fields := by
  induction fields with
  | nil => exact Nat.zero_le _
  | cons f rest ih =>
    rw [fieldsWeight_cons, List.map_cons, List.sum_cons]
    omega

theorem fieldsOf_le {name : String} {fields : List (String × Constraint)}
    (h : fieldsOf name c = .ok fields) : fieldsWeight w fields ≤ c.weight w := by
  unfold fieldsOf at h
  split at h
  · cases h
    rw [weight_object]
    exact Nat.le_add_left ..
  · cases h
    exact Nat.zero_le _
  · cases h

theorem depth_of_fieldsOf {name : String} {fields : List (String × Constraint)}
    (h : fieldsOf name c = .ok fields) : ∀ f ∈ fields, f.2.depth + 1 ≤ c.depth := by
  unfold fieldsOf at h
  split at h
  · cases h
    obtain ⟨n, hn, hfields⟩ := Constraint.depth_object fields
    rw [hn]
    exact fun f hf => Nat.succ_le_succ (hfields f hf)
  · cases h
    simp
  · cases h

section Fold

variable {β : Type} {step : β → String × Constraint → Except CompileError β}
  {written : β → List (String × Constraint)}
  (hstep : ∀ f b b', step b f = .ok b' → Adds f.2 (written b) (written b'))
include hstep

/-- What is written of parts that are set from the fields of a tree is not much larger than the tree
and the parts before. -/
theorem weight_parts {name : String} {fields : List (String × Constraint)} {b r : β}
    (hc : fieldsOf name c = .ok fields) (h : fields.foldlM step b = .ok r) :
    fieldsWeight w (written r) ≤ fieldsWeight w (written b) + 3 * c.weight w := by
  have hadded := foldlM_adds (fun b => fieldsWeight w (written b)) (fun f => 3 * f.2.weight w)
    (fun f b b' hb' => (hstep f b b' hb').weight w) h
  have hfields := sum_fields_le (w := w) fields
  have hle := fieldsOf_le (w := w) hc
  omega

theorem depth_parts {name : String} {fields : List (String × Constraint)} {b r : β}
    (hc : fieldsOf name c = .ok fields) (h : fields.foldlM step b = .ok r) (hn : c.depth ≤ n)
    (hb : ∀ f ∈ written b, f.2.depth ≤ n) : ∀ f ∈ written r, f.2.depth ≤ n :=
  foldlM_keeps (P := fun b => ∀ f ∈ written b, f.2.depth ≤ n) hb
    (fun f hf b b' hbefore hb' => (hstep f b b' hb').depth n
      ((depth_of_fieldsOf hc f hf).trans hn) hbefore) h

end Fold

/-- Requests are written with a method and an address at least. -/
theorem weight_request (r : RequestRule) :
    r.toConstraint.weight w = w.node + fieldsWeight w r.written
      ∧ 2 * w.node ≤ fieldsWeight w r.written := by
  refine ⟨weight_object _, ?_⟩
  have hmethods := node_le_weight (w := w) r.methods.toConstraint
  have hpath := node_le_weight (w := w) r.path
  simp only [RequestRule.written, fieldsWeight_append, fieldsWeight_cons, fieldsWeight_nil]
  omega

/-- A response is written with a status at least. -/
theorem weight_response (r : ResponseRule) :
    r.toConstraint.weight w = w.node + fieldsWeight w r.written
      ∧ w.node ≤ fieldsWeight w r.written := by
  refine ⟨weight_object _, ?_⟩
  have hstatus := node_le_weight (w := w) r.status
  simp only [ResponseRule.written, fieldsWeight_append, fieldsWeight_cons]
  omega

theorem weight_noRequest : fieldsWeight w ({} : RequestRule).written = 2 * w.node := by
  have hmethod : w.text "method" + (w.node + w.text "GET") = w.node := by
    rw [w.text_short (by decide), w.text_short (by decide), Nat.zero_add, Nat.add_zero]
  have hpath : w.text "urlPath" + (w.node + w.text "/") = w.node := by
    rw [w.text_short (by decide), w.text_short (by decide), Nat.zero_add, Nat.add_zero]
  show w.text "method" + (w.node + w.text "GET")
    + (w.text "urlPath" + (w.node + w.text "/") + 0) = 2 * w.node
  omega

theorem weight_noResponse : fieldsWeight w ({} : ResponseRule).written = w.node := by
  have hstatus : w.text "status" = 0 := w.text_short (by decide)
  show w.text "status" + w.node + 0 = w.node
  omega

theorem depth_noRequest (n : Nat) : ({} : RequestRule).toConstraint.depth ≤ n + 1 := by
  refine depth_object_le_iff.mpr fun f hf => ?_
  simp only [headersField, optionalField, List.isEmpty_nil, if_true, List.append_nil, List.mem_cons,
    List.not_mem_nil, or_false] at hf
  rcases hf with rfl | rfl <;> exact Nat.zero_le _

theorem depth_noResponse (n : Nat) : ({} : ResponseRule).toConstraint.depth ≤ n + 1 := by
  refine depth_object_le_iff.mpr fun f hf => ?_
  obtain rfl := List.mem_singleton.mp hf
  exact Nat.zero_le _

theorem size_request {r : RequestRule} (h : requestOf c = .ok r) :
    (∀ w, r.toConstraint.weight w ≤ 3 * w.node + 3 * c.weight w)
      ∧ r.toConstraint.depth ≤ c.depth + 1 := by
  simp only [requestOf, bind_ok] at h
  obtain ⟨fields, hfields, h⟩ := h
  have hstep : ∀ f b b', setRequestField b f = .ok b' → Adds f.2 b.written b'.written :=
    fun _ _ _ => setRequestField_adds
  refine ⟨fun w => ?_, ?_⟩
  · have hparts := weight_parts (w := w) hstep hfields h
    rw [weight_noRequest] at hparts
    rw [(weight_request r).1]
    omega
  · exact depth_object_le_iff.mpr (depth_parts hstep hfields h le_rfl
      (depth_object_le_iff.mp (depth_noRequest c.depth)))

theorem size_response {r : ResponseRule} (h : responseOf c = .ok r) :
    (∀ w, r.toConstraint.weight w ≤ 2 * w.node + 3 * c.weight w)
      ∧ r.toConstraint.depth ≤ c.depth + 1 := by
  simp only [responseOf, bind_ok] at h
  obtain ⟨fields, hfields, h⟩ := h
  have hstep : ∀ f b b', setResponseField b f = .ok b' → Adds f.2 b.written b'.written :=
    fun _ _ _ => setResponseField_adds
  refine ⟨fun w => ?_, ?_⟩
  · have hparts := weight_parts (w := w) hstep hfields h
    rw [weight_noResponse] at hparts
    rw [(weight_response r).1]
    omega
  · exact depth_object_le_iff.mpr (depth_parts hstep hfields h le_rfl
      (depth_object_le_iff.mp (depth_noResponse c.depth)))

/-! ## Contracts -/

/-- How much there is in the parts of a contract that were found; the identifier may be written
twice. -/
def Parts.weight (w : Measure) (p : Parts) : Nat :=
  2 * p.id.elim 0 w.text + p.name.elim 0 w.text + p.request.toConstraint.weight w
    + p.response.toConstraint.weight w

theorem textOf_le {name s : String} (h : textOf name c = .ok s) : w.text s ≤ c.weight w := by
  unfold textOf at h
  split at h
  · rename_i hliteral
    cases h
    rw [(literal_size hliteral).1, Constraint.weight_string]
    exact Nat.le_add_left ..
  · cases h
    exact (w.text_number _).le.trans (Nat.zero_le _)
  · cases h

theorem setField_adds {p p' : Parts} {f : String × Constraint} (h : setField p f = .ok p') :
    p'.weight w ≤ p.weight w + 3 * f.2.weight w := by
  unfold setField at h
  split at h
  · obtain ⟨id, hid, rfl⟩ := map_ok.mp h
    have hle := textOf_le (w := w) hid
    simp only [Parts.weight, Option.elim_some]
    omega
  · obtain ⟨name, hname, rfl⟩ := map_ok.mp h
    have hle := textOf_le (w := w) hname
    simp only [Parts.weight, Option.elim_some]
    omega
  · obtain ⟨request, hrequest, rfl⟩ := map_ok.mp h
    have hle := (size_request hrequest).1 w
    obtain ⟨hold, hleast⟩ := weight_request (w := w) p.request
    simp only [Parts.weight]
    omega
  · obtain ⟨response, hresponse, rfl⟩ := map_ok.mp h
    have hle := (size_response hresponse).1 w
    obtain ⟨hold, hleast⟩ := weight_response (w := w) p.response
    simp only [Parts.weight]
    omega
  · cases h
    exact Nat.le_add_right ..

theorem setField_depth {p p' : Parts} {f : String × Constraint} (h : setField p f = .ok p')
    (hf : f.2.depth ≤ n)
    (hp : p.request.toConstraint.depth ≤ n + 1 ∧ p.response.toConstraint.depth ≤ n + 1) :
    p'.request.toConstraint.depth ≤ n + 1 ∧ p'.response.toConstraint.depth ≤ n + 1 := by
  unfold setField at h
  split at h
  · obtain ⟨id, -, rfl⟩ := map_ok.mp h
    exact hp
  · obtain ⟨name, -, rfl⟩ := map_ok.mp h
    exact hp
  · obtain ⟨request, hrequest, rfl⟩ := map_ok.mp h
    exact ⟨(size_request hrequest).2.trans (Nat.succ_le_succ hf), hp.2⟩
  · obtain ⟨response, hresponse, rfl⟩ := map_ok.mp h
    exact ⟨hp.1, (size_response hresponse).2.trans (Nat.succ_le_succ hf)⟩
  · cases h
    exact hp

variable {fresh source : String} {exported : Constraint} {contract : Contract}

theorem weight_contract (d : Contract) : d.toConstraint.weight w = 3 * w.node + (w.text d.id
    + w.text d.name + d.request.toConstraint.weight w + d.response.toConstraint.weight w) := by
  have hid : w.text "id" = 0 := w.text_short (by decide)
  have hname : w.text "name" = 0 := w.text_short (by decide)
  have hrequest : w.text "request" = 0 := w.text_short (by decide)
  have hresponse : w.text "response" = 0 := w.text_short (by decide)
  have htext : ∀ s, (Constraint.constant (.string s)).weight w = w.node + w.text s := fun _ => rfl
  simp only [toConstraint, weight_object, fieldsWeight_cons, fieldsWeight_nil, hid, hname, hrequest,
    hresponse, htext]
  omega

/-- What is written of a contract is at most three times as much as there is in the tree that it was
made from, and five expressions. -/
theorem weight_ofConstraint (hfresh : fresh.utf8ByteSize ≤ Measure.shortSize)
    (h : ofConstraint fresh source exported = .ok contract) :
    contract.toConstraint.weight w ≤ 3 * exported.weight w + 5 * w.node := by
  cases exported with
  | object fields =>
    simp only [ofConstraint, bind_ok, pure_ok] at h
    obtain ⟨parts, hparts, rfl⟩ := h
    have hadded := foldlM_adds (Parts.weight w) (fun f => 3 * f.2.weight w)
      (fun f p p' => setField_adds) hparts
    have hfields := sum_fields_le (w := w) fields
    have hnone : Parts.weight w {} = 5 * w.node := by
      have hrequest := (weight_request (w := w) {}).1
      have hresponse := (weight_response (w := w) {}).1
      rw [weight_noRequest] at hrequest
      rw [weight_noResponse] at hresponse
      rw [Parts.weight, hrequest, hresponse]
      simp only [Option.elim_none]
      omega
    -- the identifier is the one that was found or a fresh one, the name may be the identifier
    have hid : w.text ((parts.id.filter fun id => !id.isEmpty).getD fresh)
        ≤ parts.id.elim 0 w.text := by
      cases hfilter : parts.id.filter fun id => !id.isEmpty with
      | none => exact (w.text_short hfresh).le.trans (Nat.zero_le _)
      | some id =>
        rw [(Option.filter_eq_some_iff.mp hfilter).1]
        exact le_rfl
    have hname : w.text (parts.name.getD ((parts.id.filter fun id => !id.isEmpty).getD fresh))
        ≤ parts.id.elim 0 w.text + parts.name.elim 0 w.text := by
      cases parts.name with
      | none => exact hid
      | some name => exact Nat.le_add_left ..
    rw [weight_contract, weight_object]
    rw [Parts.weight] at hadded
    simp only at hid hname ⊢
    omega
  | _ => cases h

/-- A contract is written at most one level deeper than the tree that it was made from. -/
theorem depth_ofConstraint (h : ofConstraint fresh source exported = .ok contract) :
    contract.toConstraint.depth ≤ exported.depth + 1 := by
  cases exported with
  | object fields =>
    simp only [ofConstraint, bind_ok, pure_ok] at h
    obtain ⟨parts, hparts, rfl⟩ := h
    obtain ⟨n, hn, hfields⟩ := Constraint.depth_object fields
    obtain ⟨hrequest, hresponse⟩ := foldlM_keeps (P := fun p : Parts =>
        p.request.toConstraint.depth ≤ n + 1 ∧ p.response.toConstraint.depth ≤ n + 1)
      ⟨depth_noRequest n, depth_noResponse n⟩
      (fun f hf p p' hp hset => setField_depth hset (hfields f hf) hp) hparts
    rw [hn, toConstraint, depth_object_le_iff]
    simp only [List.mem_cons, List.not_mem_nil, or_false, forall_eq_or_imp, forall_eq]
    exact ⟨Nat.zero_le _, Nat.zero_le _, hrequest, hresponse⟩
  | _ => cases h

end Contract

end HttpContract
