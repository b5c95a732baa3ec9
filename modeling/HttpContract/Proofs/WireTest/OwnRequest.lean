import HttpContract.Library.Simple
import HttpContract.Contract.Match
import HttpContract.Proofs.Request.Arrival

/-!
# WireTest — the requests of a contract to its own stub

The request that is drawn for a contract is handled by the contract (`handles_arriving`) if it says
the same to the client as to the stub, that is, without two-sided values and queries, and if what
was drawn arrives as what it is: the path starts with a slash, query values and headers are texts
under different names, and the body is read back.
-/

namespace HttpContract

open Calendar (Instant)
open Constraint (Closed Fits compare_textless hasLargeBound isText isWritten yields_text)

variable {now : Instant}

/-! ## What is drawn for a request -/

/-- The name of a query value, if it is given. -/
def QueryRule.givenName? (q : QueryRule) : Option String := q.name.literal?.bind Json.stringForm

/-- Query values with given names, no two of them the same. -/
structure GivenNames (query : List QueryRule) : Prop where
  given : ∀ q ∈ query, q.givenName?.isSome = true
  distinct : (query.map QueryRule.givenName?).Nodup

instance (query : List QueryRule) : Decidable (GivenNames query) :=
  decidable_of_iff ((∀ q ∈ query, q.givenName?.isSome = true)
    ∧ (query.map QueryRule.givenName?).Nodup) ⟨fun h => ⟨h.1, h.2⟩, fun h => ⟨h.given, h.distinct⟩⟩

/-- A value that is drawn for a query: it fits and has the given name. -/
def DrawnQuery (q : QueryRule) (f : String × Json) : Prop :=
  q.givenName? = some f.1 ∧ q.value.Fits f.2

/-- Nothing is drawn for a given name. -/
theorem QueryRule.resolve_name [Library] {q : QueryRule} (hclosed : q.name.Closed) {name : String}
    (h : q.givenName? = some name) :
    ∃ v : Json, v.stringForm = some name ∧ ∀ now ctx, q.name.resolve now ctx = pure v := by
  obtain ⟨v, hv, hname⟩ := Option.bind_eq_some_iff.mp h
  exact ⟨v, hname, hclosed.resolve_literal hv⟩

namespace Template

/-- Values with new names go behind the known ones, in the order of the rules. -/
theorem yields_drawQuery [Library] (hlibrary : Library.DrawsMatching) {query : List QueryRule}
    (hclosed : ∀ q ∈ query, q.name.Closed ∧ q.value.Closed)
    (hbounds : ∀ q ∈ query, q.value.any hasLargeBound = false) (hnames : GivenNames query)
    (known : List (String × Json))
    (hknown : ∀ q ∈ query, ∀ f ∈ known, q.givenName? ≠ some f.1) :
    (drawQuery now known query).Yields fun fields =>
      ∃ vs, List.Forall₂ DrawnQuery query vs ∧ fields = known ++ vs := by
  induction query generalizing known with
  | nil => exact .pure ⟨[], .nil, (List.append_nil _).symm⟩
  | cons q rest ih =>
    obtain ⟨name, hname⟩ := Option.isSome_iff_exists.mp (hnames.given q (by simp))
    obtain ⟨v, hv, hresolve⟩ := q.resolve_name (hclosed q (by simp)).1 hname
    have hdistinct := hnames.distinct
    rw [List.map_cons, List.nodup_cons] at hdistinct
    have hnew : name ∉ known.map (·.1) := by
      intro hmem
      obtain ⟨f, hf, rfl⟩ := List.mem_map.mp hmem
      exact hknown q (by simp) f hf hname
    rw [drawQuery, hresolve, pure_bind, Json.plainText, hv, Option.getD_some]
    have hfits := (hclosed q (by simp)).2.yields_fits hlibrary (hbounds q (by simp)) now context
    refine hfits.bind fun w hw => ?_
    rw [Json.setField_of_new hnew]
    refine (ih (fun p hp => hclosed p (by simp [hp])) (fun p hp => hbounds p (by simp [hp]))
      ⟨fun p hp => hnames.given p (by simp [hp]), hdistinct.2⟩ (known ++ [(name, w)]) ?_).mono ?_
    · intro p hp f hf
      rcases List.mem_append.mp hf with hf | hf
      · exact hknown p (by simp [hp]) f hf
      · rw [List.mem_singleton.mp hf, ← hname]
        exact fun heq => hdistinct.1 (List.mem_map.mpr ⟨p, hp, heq⟩)
    · rintro _ ⟨vs, hvs, rfl⟩
      exact ⟨(name, w) :: vs, .cons ⟨hname, hw⟩ hvs, by simp⟩

theorem yields_drawHeaders [Library] {headers : List (String × Constraint)}
    (h : ∀ f ∈ headers, (f.2.resolve now context).Yields fun v =>
      f.2.Fits v ∧ isText (f.1.toLower ≠ "content-type") v = true) :
    (drawHeaders now headers).Yields fun hs =>
      ∃ vs, List.Forall₂ DrawnHeader headers vs ∧ hs = sentHeaders vs := by
  induction headers with
  | nil => exact .pure ⟨[], .nil, rfl⟩
  | cons f rest ih =>
    obtain ⟨name, c⟩ := f
    refine (h (name, c) (by simp)).bind fun v hv => ?_
    refine (ih fun g hg => h g (by simp [hg])).bind ?_
    rintro _ ⟨vs, hvs, rfl⟩
    exact .pure ⟨(name, v) :: vs, .cons ⟨rfl, hv⟩ hvs, rfl⟩

theorem yields_drawBody [Library] {body : Option Constraint}
    (h : ∀ c ∈ body, (c.resolve now context).Yields c.Fits) :
    (drawBody now body).Yields (Option.Rel Fits body) := by
  cases body with
  | none => exact .pure .none
  | some c => exact (h c rfl).bind fun v hv => .pure (.some hv)

/-- A template whose parts are drawn for the parts of a contract. -/
structure Asks (rule : RequestRule) (baseUrl : String) (t : Template) : Prop where
  url : ∃ v, rule.path.Met v ∧ t.url = baseUrl ++ v.plainText
  query : List.Forall₂ DrawnQuery rule.query t.query
  headers : ∃ vs, List.Forall₂ DrawnHeader rule.headers vs ∧ t.headers = sentHeaders vs
  body : Option.Rel Fits rule.body t.body

/-- What is drawn for closed parts fits them. -/
theorem yields_draw [Library] (hlibrary : Library.DrawsMatching) {rule : RequestRule}
    (hclosed : rule.Made Closed)
    (hbounds : ∀ part ∈ rule.parts, part.any hasLargeBound = false)
    (hheaders : PlainHeaders rule.headers) (hnames : GivenNames rule.query) (baseUrl : String) :
    (draw now baseUrl rule).Yields (Asks rule baseUrl) := by
  have hpart := hbounds _ RequestRule.path_mem_parts
  refine (hclosed.path.yields_fits hlibrary hpart now context).bind fun path hpath => ?_
  refine (yields_drawQuery hlibrary hclosed.query
    (fun q hq => hbounds _ (RequestRule.query_mem_parts hq)) hnames [] (by simp)).bind ?_
  rintro _ ⟨query, hquery, rfl⟩
  refine (yields_drawHeaders fun f hf => ?_).bind ?_
  · have hpart : f.2 ∈ rule.parts := RequestRule.header_mem_parts hf
    exact ((hclosed.headers.2 f hf).yields_fits hlibrary (hbounds _ hpart) now _).and
      (yields_text (hheaders.texts f hf) now _)
  rintro _ ⟨vs, hvs, rfl⟩
  refine (yields_drawBody fun b hb => ?_).bind fun body hbody => .pure ?_
  · have hpart : b ∈ rule.parts := RequestRule.body_mem_parts hb
    exact (hclosed.body b hb).1.yields_fits hlibrary (hbounds _ hpart) now _
  · exact ⟨⟨path, hpath.1, rfl⟩, hquery, ⟨vs, hvs, rfl⟩, hbody⟩

end Template

/-! ## What a contract handles -/

namespace Contract

variable {ctx : Context}

theorem meets_met [Library] {c : Constraint} {v : Json} (hclosed : c.Closed) (h : c.Met v) :
    meets ctx c v = true := by
  rw [meets, hclosed.evaluate_eq, show c.compare v = .ok true from h]

theorem meets_textless [Library] {c : Constraint} {v : Json} (hclosed : c.Closed)
    (htextless : c.isTextless = true) (hv : isWritten v = true) : meets ctx c v = false := by
  rw [meets, hclosed.evaluate_eq, compare_textless htextless hv]

theorem resolveName_given [Library] {q : QueryRule} (hclosed : q.name.Closed) {name : String}
    (h : q.givenName? = some name) : resolveName now ctx q.name = pure (some name) := by
  obtain ⟨v, hv, hresolve⟩ := q.resolve_name hclosed h
  rw [resolveName, hresolve, ← hv]
  rfl

/-- Query values are met if each of them is found by its given name. -/
theorem meetsQuery_drawn [Library] {query : List QueryRule} {fields found : List (String × Json)}
    (hclosed : ∀ q ∈ query, q.name.Closed ∧ q.value.Closed)
    (h : List.Forall₂ DrawnQuery query fields)
    (hfound : ∀ f ∈ fields, (found.lookup f.1).getD .null = f.2) :
    meetsQuery now ctx found query = pure true := by
  induction h with
  | nil => rfl
  | @cons q f _ _ hf _ ih =>
    have hmeets : meets ctx q.value ((found.lookup f.1).getD .null) = true := by
      rw [hfound f (by simp)]
      exact meets_met (hclosed q (by simp)).2 hf.2.1
    rw [meetsQuery, resolveName_given (hclosed q (by simp)).1 hf.1, pure_bind]
    simp only [hmeets, if_true]
    exact ih (fun p hp => hclosed p (by simp [hp])) fun g hg => hfound g (by simp [hg])

/-- Query values are not met if one of them is declared as what no text is. -/
theorem meetsQuery_textless [Library] {query : List QueryRule} {found : List (String × Json)}
    (hclosed : ∀ q ∈ query, q.name.Closed ∧ q.value.Closed)
    (hwritten : ∀ f ∈ found, isWritten f.2 = true)
    (h : ∃ q ∈ query, q.value.isTextless = true) :
    (meetsQuery now ctx found query).Yields (· = false) := by
  induction query with
  | nil =>
    obtain ⟨q, hq, -⟩ := h
    cases hq
  | cons q rest ih =>
    have hany : (resolveName now ctx q.name).Yields fun _ => True := fun _ _ _ => trivial
    refine hany.bind fun name _ => ?_
    cases name with
    | none => exact .pure rfl
    | some name =>
      have harrived : isWritten ((found.lookup name).getD .null) = true := by
        cases hlookup : found.lookup name with
        | none => rfl
        | some v => exact hwritten _ (mem_of_lookup hlookup)
      simp only
      split
      · rename_i hmeets
        refine ih (fun p hp => hclosed p (by simp [hp])) ?_
        obtain ⟨p, hp, htextless⟩ := h
        rcases List.mem_cons.mp hp with rfl | hp
        · rw [meets_textless (hclosed p (by simp)).2 htextless harrived] at hmeets
          cases hmeets
        · exact ⟨p, hp, htextless⟩
      · exact .pure rfl

/-- Nothing is drawn to compare query values with given names. -/
theorem meetsQuery_given [Library] {query : List QueryRule} (found : List (String × Json))
    (hclosed : ∀ q ∈ query, q.name.Closed ∧ q.value.Closed)
    (hgiven : ∀ q ∈ query, q.givenName?.isSome = true) :
    ∃ met, meetsQuery now ctx found query = pure met := by
  induction query with
  | nil => exact ⟨true, rfl⟩
  | cons q rest ih =>
    obtain ⟨name, hname⟩ := Option.isSome_iff_exists.mp (hgiven q (by simp))
    obtain ⟨met, hmet⟩ := ih (fun p hp => hclosed p (by simp [hp]))
      fun p hp => hgiven p (by simp [hp])
    rw [meetsQuery, resolveName_given (hclosed q (by simp)).1 hname, pure_bind]
    simp only
    split
    · exact ⟨met, hmet⟩
    · exact ⟨false, rfl⟩

theorem contain_of_mem {ms : Methods} {m : String} (h : m ∈ ms.toList) : ms.contain m = true :=
  List.any_eq_true.mpr ⟨m, h, by simp⟩

end Contract

namespace WireTest

open Contract (meets meetsBody meetsHeaders meetsQuery)

section Asking

variable {rule : RequestRule} {ctx : Context} {baseUrl : String} {t : Template}

/-- The path is met: only a text starts with a slash, so that the path was drawn as it arrives. -/
theorem meets_path [Library] (hclosed : rule.Made Closed) (h : t.Asks rule baseUrl) {path : String}
    (hurl : t.url = baseUrl ++ path) (hslash : path.toList.head? = some '/') :
    meets ctx rule.path (.string path) = true := by
  obtain ⟨v, hv, hdrawn⟩ := h.url
  have hplain : v.plainText = path := by
    rw [hdrawn] at hurl
    exact (String.append_right_inj _).mp hurl
  have hstring : v = .string path := by
    rw [← hplain] at hslash ⊢
    exact Json.eq_string_of_slash hslash
  rw [← hstring]
  exact Contract.meets_met hclosed.path hv

/-- Each drawn query value is found by its name. -/
theorem lookup_queryPairs (hnames : GivenNames rule.query) (h : t.Asks rule baseUrl)
    (hquery : ∀ f ∈ t.query, Form.isArriving f.2 = true) :
    ∀ f ∈ t.query,
      ((Form.grouped (WireRequest.queryPairs t.query)).lookup f.1).getD .null = f.2 := by
  have hdistinct : (t.query.map (·.1)).Nodup := by
    have hsome : t.query.map (fun f => some f.1) = rule.query.map QueryRule.givenName? :=
      map_eq_of_forall₂ (fun _ _ hf => hf.1.symm) h.query
    refine List.Nodup.of_map some ?_
    rw [List.map_map]
    exact hsome ▸ hnames.distinct
  intro f hf
  rw [Form.grouped_queryPairs hdistinct hquery]
  exact Form.lookup_present hdistinct hf

theorem meets_headers [Library] (hclosed : rule.Made Closed) (hheaders : PlainHeaders rule.headers)
    (h : t.Asks rule baseUrl) {r : Request} (hr : r.headers = t.payload.1) :
    meetsHeaders ctx r rule.headers = true := by
  obtain ⟨vs, hvs, hsent⟩ := h.headers
  obtain ⟨added, hadded, hnamed⟩ := t.payload_headers
  refine List.all_eq_true.mpr fun f hf => ?_
  rw [Request.header?, hr, hadded, hsent]
  exact Contract.meets_met (hclosed.headers.2 f hf) (header_met hheaders hvs hnamed hf)

theorem meets_body [Library] (hclosed : rule.Made Closed) (h : t.Asks rule baseUrl)
    (hbody : ∀ v ∈ t.body, Request.readsBody t.headers v = true) {r : Request}
    (hheaders : r.headers = t.payload.1) (htext : r.body = t.payload.2.getD "") :
    meetsBody ctx r rule.body = true := by
  have hrel := h.body
  cases hrule : rule.body with
  | none => rfl
  | some part =>
    rw [hrule] at hrel
    cases hdrawn : t.body with
    | none =>
      rw [hdrawn] at hrel
      cases hrel
    | some v =>
      rw [hdrawn] at hrel
      cases hrel with
      | some hfits =>
        have hpayload : t.payload = WireRequest.encodeBody t.headers v := by
          rw [Template.payload, hdrawn]
        rw [hpayload] at hheaders htext
        rw [meetsBody, Request.parsedBody_eq hfits.2 (hbody v hdrawn) hheaders htext]
        exact Contract.meets_met (hclosed.body part hrule).1 hfits.1

end Asking

/-- A drawn request that arrives as it is meant is handled. -/
theorem handles_asks [Library] {c : Contract} (hclosed : c.request.Made Closed)
    (hheaders : PlainHeaders c.request.headers) (hnames : GivenNames c.request.query)
    {server basePath path : String} {t : Template}
    (h : Template.Asks c.request (server ++ basePath) t) (hurl : t.url = server ++ basePath ++ path)
    (hslash : path.toList.head? = some '/')
    (hquery : ∀ f ∈ t.query, Form.isArriving f.2 = true)
    (hbody : ∀ v ∈ t.body, Request.readsBody t.headers v = true) {method : String}
    (hmethod : method ∈ c.request.methods.toList) :
    c.handles now basePath ((t.request method).arriving (basePath ++ path)) = pure true := by
  set r := (t.request method).arriving (basePath ++ path)
  have hcond : (c.request.methods.contain r.method && meets (r.context basePath) c.request.path
      (.string (Request.pathBelow basePath r.path))) = true := by
    rw [Bool.and_eq_true, show r.path = basePath ++ path from rfl,
      Request.pathBelow_append basePath hslash]
    exact ⟨Contract.contain_of_mem hmethod, meets_path hclosed h hurl hslash⟩
  have hvalues : meetsQuery now (r.context basePath) r.queryFields c.request.query = pure true :=
    Contract.meetsQuery_drawn hclosed.query h.query (lookup_queryPairs hnames h hquery)
  have hmet : meetsHeaders (r.context basePath) r c.request.headers = true :=
    meets_headers hclosed hheaders h rfl
  have hread : meetsBody (r.context basePath) r c.request.body = true :=
    meets_body hclosed h hbody rfl rfl
  rw [Contract.handles]
  simp only [hcond, if_true, hvalues, pure_bind, hmet, hread, Bool.and_self]

/-- No request is handled where a query value or a header is declared that no text can meet. -/
theorem handles_textless [Library] {c : Contract} (hclosed : c.request.Made Closed)
    (h : (∃ q ∈ c.request.query, q.value.isTextless = true)
      ∨ ∃ f ∈ c.request.headers, f.2.isTextless = true) (basePath : String) (r : Request) :
    (c.handles now basePath r).Yields (· = false) := by
  rw [Contract.handles]
  split
  · rcases h with hquery | ⟨f, hf, htextless⟩
    · refine (Contract.meetsQuery_textless hclosed.query (Form.isWritten_grouped _) hquery).bind ?_
      rintro _ rfl
      exact .pure rfl
    · have hmet : meetsHeaders (r.context basePath) r c.request.headers = false := by
        have harrived : isWritten (((r.header? f.1).map Json.string).getD .null) = true := by
          cases r.header? f.1 <;> rfl
        refine List.all_eq_false.mpr ⟨f, hf, ?_⟩
        rw [Contract.meets_textless (hclosed.headers.2 f hf) htextless harrived]
        exact Bool.false_ne_true
      have hany : (meetsQuery now (r.context basePath) r.queryFields c.request.query).Yields
          fun _ => True := fun _ _ _ => trivial
      refine hany.bind fun met _ => ?_
      split
      · exact .pure (by rw [hmet, Bool.false_and])
      · exact .pure rfl
  · exact .pure rfl

/-- A contract with given names for its query values comes to a verdict. -/
theorem handles_given [Library] {c : Contract} (hclosed : c.request.Made Closed)
    (hgiven : ∀ q ∈ c.request.query, q.givenName?.isSome = true) (basePath : String)
    (r : Request) : ∃ verdict, c.handles now basePath r = pure verdict := by
  obtain ⟨met, hmet⟩ : ∃ met,
      Contract.meetsQuery now (r.context basePath) r.queryFields c.request.query = pure met :=
    Contract.meetsQuery_given r.queryFields hclosed.query hgiven
  rw [Contract.handles, hmet]
  split
  · rw [pure_bind]
    split
    · exact ⟨_, rfl⟩
    · exact ⟨false, rfl⟩
  · exact ⟨false, rfl⟩

/-- Let the texts that the libraries draw match their patterns. Let a contract have no two-sided
values and queries, and no whole number with a bound greater than `2 ^ 52` in its request. If its
query values have different given names and its headers are texts with different names, it handles
every request that is drawn for it, provided that its path starts with a slash and its query values
and its body arrive as what they are. If a query value or a header is declared as a number, a truth
value or an object, it handles no request, and it refuses each of them if the names of its query
values are given. -/
theorem handles_arriving [Library] (hlibrary : Library.DrawsMatching) {limits : Script.Limits}
    {source : String} {draws₀ : Draws} {c : Contract}
    (hcompile : ((Contract.compile limits source).run draws₀).1 = .ok c)
    (hcalls : ∀ name ∈ Contract.contextCalls, ¬Script.Calls source name)
    (hbounds : ∀ part ∈ c.request.parts, part.any hasLargeBound = false) :
    (PlainHeaders c.request.headers → GivenNames c.request.query →
      ∀ now server basePath draws t,
      ((Template.draw now (server ++ basePath) c.request).run draws).1 = .ok t →
      ∀ path, t.url = server ++ basePath ++ path → path.toList.head? = some '/' →
      (∀ f ∈ t.query, Form.isArriving f.2 = true) →
      (∀ v ∈ t.body, Request.readsBody t.headers v = true) →
      ∀ method ∈ c.request.methods.toList, ∀ now' draws',
      ((c.handles now' basePath ((t.request method).arriving (basePath ++ path))).run draws').1
        = .ok true)
    ∧ ((∃ q ∈ c.request.query, q.value.isTextless = true)
        ∨ (∃ f ∈ c.request.headers, f.2.isTextless = true) →
      ∀ now basePath r draws, ((c.handles now basePath r).run draws).1 ≠ .ok true
        ∧ ((∀ q ∈ c.request.query, q.givenName?.isSome = true) →
          ((c.handles now basePath r).run draws).1 = .ok false)) := by
  obtain ⟨hclosed, -⟩ := Contract.compile_closed hcalls hcompile
  constructor
  · intro hheaders hnames now server basePath draws t hdraw path hurl hslash hquery hbody method
      hmethod now' draws'
    have hasks := Template.yields_draw hlibrary hclosed hbounds hheaders hnames _ draws t hdraw
    rw [handles_asks hclosed hheaders hnames hasks hurl hslash hquery hbody hmethod]
    rfl
  · intro htextless now basePath r draws
    have hrefused : (c.handles now basePath r).Yields (· = false) :=
      handles_textless hclosed htextless basePath r
    refine ⟨fun hhandled => Bool.true_eq_false.mp (hrefused draws true hhandled), fun hgiven => ?_⟩
    obtain ⟨verdict, hverdict⟩ : ∃ verdict, c.handles now basePath r = pure verdict :=
      handles_given hclosed hgiven basePath r
    rw [hverdict] at hrefused ⊢
    exact congrArg Except.ok (hrefused draws verdict rfl)

section Simple

attribute [local instance] Library.simple

theorem handles_arriving_search : ∃ c t,
    ((Contract.compile {}
      "\x7brequest: \x7bqueryParameters: \x7bq: regex('a')\x7d, body: [uuid4(), 1.5]\x7d\x7d").run
        ⟨id, 0⟩).1 = .ok c
    ∧ ((Template.draw ⟨0, 0⟩ ("s" ++ "/b") c.request).run ⟨id, 0⟩).1 = .ok t
    ∧ ((c.handles ⟨0, 0⟩ "/b" ((t.request "GET").arriving ("/b" ++ "/"))).run
      ⟨id, 0⟩).1 = .ok true := by
  obtain ⟨c, hcompile, hchecks⟩ : ∃ c, ((Contract.compile {}
      "\x7brequest: \x7bqueryParameters: \x7bq: regex('a')\x7d, body: [uuid4(), 1.5]\x7d\x7d").run
        ⟨id, 0⟩).1 = .ok c
      ∧ (decide (∀ part ∈ c.request.parts, part.any hasLargeBound = false)
        && decide (PlainHeaders c.request.headers ∧ GivenNames c.request.query
          ∧ "GET" ∈ c.request.methods.toList)
        && ((Template.draw ⟨0, 0⟩ ("s" ++ "/b") c.request).run
          ⟨id, 0⟩).1.toOption.any fun t =>
            decide (t.url = "s" ++ "/b" ++ "/" ∧ (∀ f ∈ t.query, Form.isArriving f.2 = true)
              ∧ ∀ v ∈ t.body, Request.readsBody t.headers v = true)) = true :=
    exists_ok_of_any (by decide +kernel)
  rw [Bool.and_eq_true, Bool.and_eq_true, decide_eq_true_eq, decide_eq_true_eq] at hchecks
  obtain ⟨⟨hbounds, hheaders, hnames, hmethod⟩, hrequest⟩ := hchecks
  obtain ⟨t, ht, hdrawn⟩ := exists_ok_of_any hrequest
  obtain ⟨hurl, hquery, hbody⟩ := of_decide_eq_true hdrawn
  exact ⟨c, t, hcompile, ht, (handles_arriving Library.simple_drawsMatching hcompile
    (by decide +kernel) hbounds).1 hheaders hnames _ _ _ _ _ ht _ hurl (by decide) hquery hbody _
      hmethod _ _⟩

end Simple

end WireTest

end HttpContract
