import HttpContract.Http.Message
import HttpContract.Proofs.Constraint.Closed
import HttpContract.Proofs.Contract.Canonical

/-!
# Contract — contracts that mean the same everywhere

A script that calls for neither two-sided values nor queries gives a contract of closed parts
(`compile_closed`). Headers that are drawn for such a contract are found again by their names, if no
two of them differ in case only and the values are texts (`header_received`).
-/

namespace HttpContract

open Calendar (Instant)
open Constraint (Closed FieldsWith Kept drawsText hasLargeBound inherited_closed isText run_kept)

/-! ## Parts -/

/-- The constraints on a request. -/
def RequestRule.parts (r : RequestRule) : List Constraint :=
  r.path :: (r.query.flatMap fun q => [q.name, q.value]) ++ r.headers.map (·.2) ++ r.body.toList

namespace RequestRule

variable {r : RequestRule}

theorem path_mem_parts : r.path ∈ r.parts := by simp [parts]

theorem query_mem_parts {q : QueryRule} (hq : q ∈ r.query) : q.value ∈ r.parts := by
  simp only [parts, List.mem_append, List.mem_cons, List.mem_flatMap]
  exact .inl (.inl (.inr ⟨q, hq, by simp⟩))

theorem header_mem_parts {h : String × Constraint} (hh : h ∈ r.headers) : h.2 ∈ r.parts := by
  simp only [parts, List.mem_append, List.mem_map]
  exact .inl (.inr ⟨h, hh, rfl⟩)

theorem body_mem_parts {c : Constraint} (hc : c ∈ r.body) : c ∈ r.parts := by
  simp [parts, Option.mem_def.mp hc]

end RequestRule

/-- The constraints of a response. -/
def ResponseRule.parts (r : ResponseRule) : List Constraint :=
  r.status :: r.headers.map (·.2) ++ r.body.toList

namespace Contract

/-- The names of the calls that depend on where they are evaluated. -/
def contextCalls : List String := ["value", "stubValue", "testValue", "jsonpath"]

/-- A script without calls that depend on where they are evaluated gives a contract of closed
parts. -/
theorem compile_closed [Library] {limits : Script.Limits} {source : String} {draws : Draws}
    {c : Contract} (hcalls : ∀ name ∈ contextCalls, ¬Script.Calls source name)
    (h : ((compile limits source).run draws).1 = .ok c) :
    c.request.Made Closed ∧ c.response.Made Closed := by
  rw [compile_run] at h
  unfold compileWith at h
  split at h
  · rename_i exported hrun
    refine made_ofConstraint inherited_closed (Constraint.closed_of_run ?_ hrun) h
    intro name b hcall hb
    obtain rfl := lookup_standard hb
    cases b with
    | jsonpath => exact absurd hcall (hcalls _ (by decide))
    | value => exact absurd hcall (hcalls _ (by decide))
    | stubValue => exact absurd hcall (hcalls _ (by decide))
    | testValue => exact absurd hcall (hcalls _ (by decide))
    | _ => exact ⟨rfl, by decide⟩
  · cases h

end Contract

/-! ## Headers -/

/-- Headers whose names differ whatever their case and whose values are texts. Null leaves a header
out; the content type is not left out. -/
structure PlainHeaders (headers : List (String × Constraint)) : Prop where
  names : (headers.map fun h => h.1.toLower).Nodup
  texts : ∀ h ∈ headers, h.2.drawsText (h.1.toLower ≠ "content-type") = true

instance (headers : List (String × Constraint)) : Decidable (PlainHeaders headers) :=
  decidable_of_iff ((headers.map fun h => h.1.toLower).Nodup
    ∧ ∀ h ∈ headers, h.2.drawsText (h.1.toLower ≠ "content-type") = true)
    ⟨fun h => ⟨h.1, h.2⟩, fun h => ⟨h.names, h.texts⟩⟩

/-- The headers that are sent for named values: null leaves one out. -/
def sentHeaders : List (String × Json) → Pairs
  | [] => []
  | (name, v) :: rest =>
    if v.isNull then sentHeaders rest else (name, v.plainText) :: sentHeaders rest

theorem sentHeaders_string (name s : String) (rest : List (String × Json)) :
    sentHeaders ((name, .string s) :: rest) = (name, s) :: sentHeaders rest := rfl

theorem sentHeaders_null (name : String) (rest : List (String × Json)) :
    sentHeaders ((name, .null) :: rest) = sentHeaders rest := rfl

theorem Pairs.header?_cons (name value : String) (rest : Pairs) (key : String) :
    Pairs.header? ((name, value) :: rest) key
      = if name.toLower = key.toLower then some value else rest.header? key := by
  rw [Pairs.header?, List.find?_cons]
  by_cases h : name.toLower = key.toLower
  · simp [h]
  · simp [h, Pairs.header?]

theorem Pairs.header?_append (headers added : Pairs) (key : String) :
    Pairs.header? (headers ++ added) key = (headers.header? key).or (added.header? key) := by
  rw [Pairs.header?, List.find?_append, Option.map_or]
  rfl

theorem Pairs.header?_eq_none {headers : Pairs} {key : String}
    (h : ∀ f ∈ headers, f.1.toLower ≠ key.toLower) : headers.header? key = none := by
  rw [Pairs.header?, List.find?_eq_none.mpr (by simpa using h), Option.map_none]

theorem name_of_sentHeaders {vs : List (String × Json)} {f : String × String}
    (h : f ∈ sentHeaders vs) : ∃ v ∈ vs, v.1 = f.1 := by
  induction vs with
  | nil => cases h
  | cons v rest ih =>
    obtain ⟨name, w⟩ := v
    rw [sentHeaders] at h
    split at h
    · obtain ⟨v, hv, hname⟩ := ih h
      exact ⟨v, by simp [hv], hname⟩
    · rcases List.mem_cons.mp h with rfl | h
      · exact ⟨(name, w), by simp, rfl⟩
      · obtain ⟨v, hv, hname⟩ := ih h
        exact ⟨v, by simp [hv], hname⟩

/-- A header that is sent is found by its name, and one that is left out is not. A content type may
have been added. -/
theorem header_received {vs : List (String × Json)} {added : Pairs}
    (hnames : (vs.map fun v => v.1.toLower).Nodup)
    (hadded : ∀ f ∈ added, f.1.toLower = "content-type") {v : String × Json} (hv : v ∈ vs)
    (htext : isText (v.1.toLower ≠ "content-type") v.2 = true) :
    (((sentHeaders vs ++ added).header? v.1).map .string).getD .null = v.2 := by
  induction vs with
  | nil => cases hv
  | cons w rest ih =>
    rw [List.map_cons, List.nodup_cons] at hnames
    obtain ⟨hother, hnames⟩ := hnames
    have hne : ∀ u ∈ rest, u.1.toLower ≠ w.1.toLower := fun u hu heq =>
      hother (List.mem_map.mpr ⟨u, hu, heq⟩)
    obtain ⟨name, x⟩ := w
    rcases List.mem_cons.mp hv with rfl | hv
    · cases x with
      | string s =>
        rw [sentHeaders_string, List.cons_append, Pairs.header?_cons, if_pos rfl]
        rfl
      | null =>
        -- nothing else has the name of a header that is left out
        have hcontent : name.toLower ≠ "content-type" := of_decide_eq_true htext
        rw [sentHeaders_null, Pairs.header?_eq_none ?_]
        · rfl
        intro f hf
        rcases List.mem_append.mp hf with hf | hf
        · obtain ⟨u, hu, huf⟩ := name_of_sentHeaders hf
          rw [← huf]
          exact hne u hu
        · rw [hadded f hf]
          exact hcontent.symm
      | _ => cases htext
    · have hrest := ih hnames hv
      rw [sentHeaders]
      split
      · exact hrest
      · rw [List.cons_append, Pairs.header?_cons, if_neg (hne v hv).symm]
        exact hrest

/-- A value that is drawn for a header: it fits and is a text, or null where that leaves the header
out. -/
def DrawnHeader (h : String × Constraint) (v : String × Json) : Prop :=
  v.1 = h.1 ∧ h.2.Fits v.2 ∧ isText (h.1.toLower ≠ "content-type") v.2 = true

/-- What arrives as a drawn header meets the constraint on it. -/
theorem header_met {headers : List (String × Constraint)} {vs : List (String × Json)}
    {added : Pairs} (hheaders : PlainHeaders headers) (hvs : List.Forall₂ DrawnHeader headers vs)
    (hadded : ∀ f ∈ added, f.1.toLower = "content-type") {h : String × Constraint}
    (hh : h ∈ headers) :
    h.2.Met ((((sentHeaders vs ++ added).header? h.1).map .string).getD .null) := by
  obtain ⟨v, hv, hname, hfits, htext⟩ := exists_of_forall₂_left hvs hh
  have hnames : (vs.map fun v => v.1.toLower).Nodup := by
    rw [map_eq_of_forall₂ (fun _ _ hv => congrArg String.toLower hv.1) hvs]
    exact hheaders.names
  rw [← hname, header_received hnames hadded hv (hname ▸ htext)]
  exact hfits.1

theorem toLower_contentType : "Content-Type".toLower = "content-type" := by
  decide +kernel

theorem toLower_smallContentType : "content-type".toLower = "content-type" := by
  decide +kernel

end HttpContract
