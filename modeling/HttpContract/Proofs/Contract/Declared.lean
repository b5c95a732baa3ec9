import HttpContract.Library.Simple
import HttpContract.Contract.Match
import HttpContract.Proofs.Constraint.Queryless
import HttpContract.Proofs.Contract.Closed
import HttpContract.Proofs.Request.Form
import Mathlib.Logic.Relation

/-!
# Contract — what a contract sees of a request

A contract without queries and with given names of its query values looks at a few parts of a
request only: its method whatever the case, its path below the base path, the values of the declared
names, the first values of the declared headers, and its body if one is declared. Requests with the
same such parts are handled alike (`handles_declared`), so other headers and query values, the order
of those with different names and the case of header names play no part.
-/

namespace HttpContract

open Calendar (Instant)
open Constraint (evaluate_document isQuery)

/-! ## Requests that are the same for a contract -/

/-- Requests that are the same in all parts that a contract looks at. -/
structure Request.SameFor (rule : RequestRule) (basePath : String) (r r' : Request) : Prop where
  method : r.method.toLower = r'.method.toLower
  path : pathBelow basePath r.path = pathBelow basePath r'.path
  query : ∀ q ∈ rule.query, ∀ name, q.name = .constant (.string name) →
    r.query.values name = r'.query.values name
  headers : ∀ h ∈ rule.headers, r.header? h.1 = r'.header? h.1
  body : rule.body.isSome = true → r.parsedBody = r'.parsedBody

namespace Request.SameFor

variable {rule : RequestRule} {basePath : String} {r r' r'' : Request}

theorem refl (r : Request) : SameFor rule basePath r r :=
  ⟨rfl, rfl, fun _ _ _ _ => rfl, fun _ _ => rfl, fun _ => rfl⟩

theorem symm (h : SameFor rule basePath r r') : SameFor rule basePath r' r where
  method := h.method.symm
  path := h.path.symm
  query q hq name hname := (h.query q hq name hname).symm
  headers f hf := (h.headers f hf).symm
  body hbody := (h.body hbody).symm

theorem trans (h : SameFor rule basePath r r') (h' : SameFor rule basePath r' r'') :
    SameFor rule basePath r r'' where
  method := h.method.trans h'.method
  path := h.path.trans h'.path
  query q hq name hname := (h.query q hq name hname).trans (h'.query q hq name hname)
  headers f hf := (h.headers f hf).trans (h'.headers f hf)
  body hbody := (h.body hbody).trans (h'.body hbody)

end Request.SameFor

/-! ## Changes that a contract does not see -/

/-- One change of a request that a contract does not see: neighbours with different names are
swapped, a header is named in another case, or a query value or a header is added that is not
declared and is no content type. -/
inductive Request.Unseen (rule : RequestRule) : Request → Request → Prop where
  | swapQuery {p q : String × String} (r : Request) (before after : Pairs) (h : p.1 ≠ q.1) :
    Unseen rule { r with query := before ++ p :: q :: after }
      { r with query := before ++ q :: p :: after }
  | addQuery {p : String × String} (r : Request) (before after : Pairs)
    (h : ∀ q ∈ rule.query, q.name ≠ .constant (.string p.1)) :
    Unseen rule { r with query := before ++ after } { r with query := before ++ p :: after }
  | swapHeaders {p q : String × String} (r : Request) (before after : Pairs)
    (h : p.1.toLower ≠ q.1.toLower) :
    Unseen rule { r with headers := before ++ p :: q :: after }
      { r with headers := before ++ q :: p :: after }
  | renameHeader {name name' : String} (r : Request) (before after : Pairs) (value : String)
    (h : name.toLower = name'.toLower) :
    Unseen rule { r with headers := before ++ (name, value) :: after }
      { r with headers := before ++ (name', value) :: after }
  | addHeader {p : String × String} (r : Request) (before after : Pairs)
    (h : ∀ f ∈ rule.headers, f.1.toLower ≠ p.1.toLower) (htype : p.1.toLower ≠ "content-type") :
    Unseen rule { r with headers := before ++ after } { r with headers := before ++ p :: after }

namespace Pairs

theorem values_swap {p q : String × String} (h : p.1 ≠ q.1) (before after : Pairs) (name : String) :
    values (before ++ p :: q :: after) name = values (before ++ q :: p :: after) name := by
  rw [values_append, values_append, values_cons, values_cons, values_cons, values_cons]
  by_cases hp : p.1 = name
  · have hq : q.1 ≠ name := fun hq => h (hp.trans hq.symm)
    rw [if_pos hp, if_neg hq, if_neg hq, if_pos hp]
  · rw [if_neg hp, if_neg hp]

theorem header?_swap {p q : String × String} (h : p.1.toLower ≠ q.1.toLower)
    (before after : Pairs) (key : String) :
    header? (before ++ p :: q :: after) key = header? (before ++ q :: p :: after) key := by
  rw [header?_append, header?_append, header?_cons, header?_cons, header?_cons, header?_cons]
  by_cases hp : p.1.toLower = key.toLower
  · have hq : q.1.toLower ≠ key.toLower := fun hq => h (hp.trans hq.symm)
    rw [if_pos hp, if_neg hq, if_pos hp]
  · rw [if_neg hp, if_neg hp]

theorem values_insert {p : String × String} {name : String} (h : p.1 ≠ name)
    (before after : Pairs) :
    values (before ++ p :: after) name = values (before ++ after) name := by
  rw [values_append, values_append, values_cons, if_neg h]

theorem header?_rename {name name' : String} (h : name.toLower = name'.toLower)
    (before after : Pairs) (value key : String) :
    header? (before ++ (name, value) :: after) key
      = header? (before ++ (name', value) :: after) key := by
  rw [header?_append, header?_append, header?_cons, header?_cons, h]

theorem header?_insert {p : String × String} {key : String} (h : p.1.toLower ≠ key.toLower)
    (before after : Pairs) :
    header? (before ++ p :: after) key = header? (before ++ after) key := by
  rw [header?_append, header?_append, header?_cons, if_neg h]

end Pairs

namespace Request

variable {rule : RequestRule} {basePath : String} {r r' : Request}

/-- Of the headers, only the content type plays a part in how a body is read. -/
theorem parsedBody_congr (hbody : r.body = r'.body)
    (htype : r.header? "content-type" = r'.header? "content-type") :
    r.parsedBody = r'.parsedBody := by
  rw [header?, header?] at htype
  rw [parsedBody, parsedBody, jsonBody?, jsonBody?, sendsForm, sendsForm, htype, hbody]

/-- Requests that differ in other headers only. -/
theorem SameFor.ofHeaders {headers : Pairs}
    (hdeclared : ∀ f ∈ rule.headers, r.headers.header? f.1 = headers.header? f.1)
    (htype : r.headers.header? "content-type" = headers.header? "content-type") :
    SameFor rule basePath r { r with headers } where
  method := rfl
  path := rfl
  query _ _ _ _ := rfl
  headers := hdeclared
  body _ := parsedBody_congr rfl htype

/-- Requests that differ in other query values only. -/
theorem SameFor.ofQuery {query : Pairs}
    (h : ∀ q ∈ rule.query, ∀ name, q.name = .constant (.string name) →
      r.query.values name = query.values name) : SameFor rule basePath r { r with query } where
  method := rfl
  path := rfl
  query := h
  headers _ _ := rfl
  body _ := rfl

/-- A contract looks at nothing that an unseen change touches. -/
theorem Unseen.sameFor (h : Unseen rule r r') (basePath : String) : SameFor rule basePath r r' := by
  cases h with
  | swapQuery r before after h =>
    exact .ofQuery (r := { r with query := _ }) fun _ _ => fun name _ =>
      Pairs.values_swap h before after name
  | @addQuery p r before after h =>
    refine .ofQuery (r := { r with query := _ }) fun q hq name hname => ?_
    have hother : p.1 ≠ name := fun heq => h q hq (heq ▸ hname)
    exact (Pairs.values_insert hother before after).symm
  | swapHeaders r before after h =>
    exact .ofHeaders (r := { r with headers := _ })
      (fun f _ => Pairs.header?_swap h before after f.1) (Pairs.header?_swap h before after _)
  | renameHeader r before after value h =>
    exact .ofHeaders (r := { r with headers := _ })
      (fun f _ => Pairs.header?_rename h before after value f.1)
      (Pairs.header?_rename h before after value _)
  | @addHeader p r before after h htype =>
    have hother : p.1.toLower ≠ "content-type".toLower := by
      rwa [toLower_smallContentType]
    exact .ofHeaders (r := { r with headers := _ })
      (fun f hf => (Pairs.header?_insert (h f hf).symm before after).symm)
      (Pairs.header?_insert hother before after).symm

/-- Nor does it look at what any number of unseen changes touch, made or undone. -/
theorem sameFor_of_eqvGen (h : Relation.EqvGen (Unseen rule) r r') (basePath : String) :
    SameFor rule basePath r r' := by
  induction h with
  | rel _ _ h => exact h.sameFor basePath
  | refl r => exact .refl r
  | symm _ _ _ ih => exact ih.symm
  | trans _ _ _ _ _ ih ih' => exact ih.trans ih'

end Request

/-! ## Verdicts -/

namespace Contract

variable {now : Instant} {ctx : Context} {rule : RequestRule} {basePath : String} {r r' : Request}

/-- Query values with names that are written as texts. -/
def NamedQuery (query : List QueryRule) : Prop :=
  ∀ q ∈ query, ∃ name, q.name = .constant (.string name)

/-- Whether a query value is met under the name that it is written with. -/
def meetsNamed [Library] (ctx : Context) (query : Pairs) (q : QueryRule) : Bool :=
  match q.name with
  | .constant (.string name) =>
    meets ctx q.value (((Form.grouped query).lookup name).getD .null)
  | _ => false

/-- Where names are written, nothing is drawn for query values. -/
theorem meetsQuery_named [Library] {query : List QueryRule} (h : NamedQuery query) (pairs : Pairs) :
    meetsQuery now ctx (Form.grouped pairs) query = pure (query.all (meetsNamed ctx pairs)) := by
  induction query with
  | nil => rfl
  | cons q rest ih =>
    obtain ⟨name, hname⟩ := h q (by simp)
    have hresolve : resolveName now ctx q.name = pure (some name) := by
      rw [hname]
      rfl
    have hmet : meetsNamed ctx pairs q
        = meets ctx q.value (((Form.grouped pairs).lookup name).getD .null) := by
      rw [meetsNamed, hname]
    rw [meetsQuery, hresolve, pure_bind, ih fun p hp => h p (by simp [hp]), List.all_cons, hmet]
    simp only
    cases meets ctx q.value _ <;> rfl

/-- The verdict of a contract for which nothing is drawn. -/
def verdict [Library] (rule : RequestRule) (basePath : String) (r : Request) : Bool :=
  rule.methods.contain r.method
    && meets (r.context basePath) rule.path (.string (Request.pathBelow basePath r.path))
    && rule.query.all (meetsNamed (r.context basePath) r.query)
    && meetsHeaders (r.context basePath) r rule.headers
    && meetsBody (r.context basePath) r rule.body

theorem handles_named [Library] {c : Contract} (h : NamedQuery c.request.query) :
    c.handles now basePath r = pure (verdict c.request basePath r) := by
  rw [handles]
  simp only [verdict, Request.queryFields, meetsQuery_named h]
  cases c.request.methods.contain r.method <;> cases meets (r.context basePath) c.request.path _ <;>
    cases c.request.query.all _ <;> rfl

theorem meets_document [Library] {c : Constraint} (h : c.any isQuery = false) (a b : Json)
    (m : Mode) (v : Json) : meets ⟨a, m⟩ c v = meets ⟨b, m⟩ c v := by
  rw [meets, meets, evaluate_document h a b m]

theorem contain_congr {methods : Methods} {method method' : String}
    (h : method.toLower = method'.toLower) : methods.contain method = methods.contain method' := by
  rw [Methods.contain, Methods.contain, h]

theorem meetsNamed_congr [Library] {q : QueryRule} (hqueries : q.value.any isQuery = false)
    {pairs pairs' : Pairs} (h : ∀ name, q.name = .constant (.string name) →
      pairs.values name = pairs'.values name) (a b : Json) (m : Mode) :
    meetsNamed ⟨a, m⟩ pairs q = meetsNamed ⟨b, m⟩ pairs' q := by
  unfold meetsNamed
  split
  · rename_i name hname
    rw [Form.lookup_grouped, Form.lookup_grouped, h name hname, meets_document hqueries a b]
  · rfl

/-- The verdict depends only on the parts that a contract looks at. -/
theorem verdict_congr [Library] (hqueries : ∀ part ∈ rule.parts, part.any isQuery = false)
    (h : r.SameFor rule basePath r') : verdict rule basePath r = verdict rule basePath r' := by
  -- the documents still hold all of the requests, but without queries nothing reads them
  have hpart {part : Constraint} (hmem : part ∈ rule.parts) (v : Json) :
      meets (r.context basePath) part v = meets (r'.context basePath) part v :=
    meets_document (hqueries part hmem) _ _ _ v
  have hquery : rule.query.all (meetsNamed (r.context basePath) r.query)
      = rule.query.all (meetsNamed (r'.context basePath) r'.query) :=
    all_congr_left fun q hq =>
      meetsNamed_congr (hqueries _ (RequestRule.query_mem_parts hq)) (h.query q hq) _ _ _
  have hheaders : meetsHeaders (r.context basePath) r rule.headers
      = meetsHeaders (r'.context basePath) r' rule.headers :=
    all_congr_left fun f hf => by
      rw [hpart (RequestRule.header_mem_parts hf), h.headers f hf]
  have hbody : meetsBody (r.context basePath) r rule.body
      = meetsBody (r'.context basePath) r' rule.body := by
    have hread := h.body
    have hmem : ∀ part ∈ rule.body, part ∈ rule.parts := fun part => RequestRule.body_mem_parts
    cases hrule : rule.body with
    | none => rfl
    | some part =>
      rw [hrule] at hread hmem
      rw [meetsBody, meetsBody, hpart (hmem part rfl), hread rfl]
  rw [verdict, verdict, contain_congr h.method, hpart RequestRule.path_mem_parts, h.path, hquery,
    hheaders, hbody]

/-- A contract sees only what it declares. Let there be no queries in its request, and let the names
of its query values be written as texts. Then requests that are the same in the parts that it looks
at get the same verdict, whatever is drawn and whenever: in their methods but for the case, in their
paths below the base path, in the values of each declared name, in the first value of each declared
header and, if a body is declared, in what is read of the body. So do requests that changes lead to
which it does not see. -/
theorem handles_declared [Library] {c : Contract}
    (hqueries : ∀ part ∈ c.request.parts, part.any isQuery = false)
    (hnames : NamedQuery c.request.query) (basePath : String) :
    (∀ r r', r.SameFor c.request basePath r' → ∃ verdict, ∀ now draws,
      ((c.handles now basePath r).run draws).1 = .ok verdict
      ∧ ((c.handles now basePath r').run draws).1 = .ok verdict)
    ∧ ∀ r r', Relation.EqvGen (Request.Unseen c.request) r r' → ∃ verdict, ∀ now draws,
      ((c.handles now basePath r).run draws).1 = .ok verdict
      ∧ ((c.handles now basePath r').run draws).1 = .ok verdict := by
  have hsame : ∀ r r', r.SameFor c.request basePath r' → ∃ verdict, ∀ now draws,
      ((c.handles now basePath r).run draws).1 = .ok verdict
      ∧ ((c.handles now basePath r').run draws).1 = .ok verdict := by
    intro r r' h
    refine ⟨verdict c.request basePath r, fun now draws => ?_⟩
    rw [handles_named hnames, handles_named hnames, verdict_congr hqueries h]
    exact ⟨rfl, rfl⟩
  exact ⟨hsame, fun r r' h => hsame r r' (Request.sameFor_of_eqvGen h basePath)⟩

section Simple

attribute [local instance] Library.simple

/-- Query values in another order, a header in another case and one more header. -/
theorem handles_declared_unseen :
    let rule : RequestRule :=
      { query := [⟨.constant (.string "q"), .matcher .uuid4⟩]
        headers := [("X-A", .constant (.string "1"))]
        body := some (.array []) }
    let c : Contract := ⟨"c", "c", rule, {}, ""⟩
    let r : Request :=
      { query := [("a", "1"), ("q", "2")], headers := [("x-a", "1")], body := "[]" }
    let r' : Request :=
      { r with query := [("q", "2"), ("a", "1")], headers := [("X-A", "1"), ("Accept", "*")] }
    (∀ part ∈ c.request.parts, part.any isQuery = false) ∧ NamedQuery c.request.query
      ∧ Relation.EqvGen (Request.Unseen c.request) r r'
      ∧ ∃ verdict, ∀ now draws, ((c.handles now "/b" r).run draws).1 = .ok verdict
        ∧ ((c.handles now "/b" r').run draws).1 = .ok verdict := by
  intro rule c r r'
  have hqueries : ∀ part ∈ c.request.parts, part.any isQuery = false := by decide
  have hnames : NamedQuery c.request.query := by
    intro q hq
    exact ⟨"q", congrArg QueryRule.name (List.mem_singleton.mp hq)⟩
  have hsmall : "x-a".toLower = "x-a" := by decide +kernel
  have hcapital : "X-A".toLower = "x-a" := by decide +kernel
  have hswap : Request.Unseen rule r { r with query := r'.query } :=
    .swapQuery r [] [] (by decide)
  have hrename : Request.Unseen rule { r with query := r'.query }
      { r with query := r'.query, headers := [("X-A", "1")] } :=
    .renameHeader { r with query := r'.query } [] [] "1" (hsmall.trans hcapital.symm)
  have hadd : Request.Unseen rule { r with query := r'.query, headers := [("X-A", "1")] } r' :=
    .addHeader { r with query := r'.query } [("X-A", "1")] [] (by decide +kernel)
      (by decide +kernel)
  have hchanges : Relation.EqvGen (Request.Unseen c.request) r r' :=
    .trans _ _ _ (.rel _ _ hswap) (.trans _ _ _ (.rel _ _ hrename) (.rel _ _ hadd))
  exact ⟨hqueries, hnames, hchanges, (handles_declared hqueries hnames "/b").2 r r' hchanges⟩

end Simple

end Contract

end HttpContract
