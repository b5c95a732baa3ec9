import HttpContract.Library.Simple
import HttpContract.JsonPath.Parser
import HttpContract.Proofs.JsonPath.Agreement
import HttpContract.Proofs.Request.Received
import HttpContract.WireTest.Run

/-!
# WireTest — what a test and a stub see of one request

A test evaluates the expected response in the document of the request that it sends, a stub its
response in the document of the request that it receives. A query that reads some parts of a request
selects the same values in both documents if these parts are seen as they were sent, and for each
part that is not there is a query that tells the documents apart (`evaluate_sent_iff`). The method
and the text of the body are seen as they were sent, but others are not: the path, which is sent
with the address of the server, names of headers in capital letters, and values of queries that are
not texts.
-/

namespace HttpContract

open Calendar (Instant)
open Constraint (Generator)
open JsonPath (AgreeOn fieldOf?)

/-! ## Parts of requests -/

/-- A part of a request that queries can read. -/
inductive RequestPart where
  | method
  | path
  | query
  | body
  | rawBody
  | jsonBody
  | headers
deriving DecidableEq

namespace RequestPart

/-- The name of a part in a document. -/
def name : RequestPart → String
  | method => "method"
  | path => "path"
  | query => "query"
  | body => "body"
  | rawBody => "rawBody"
  | jsonBody => "jsonBody"
  | headers => "headers"

/-- Whether a part of a request is seen as it was sent, for a path below an address: the path if the
address is nothing but the slash that it lacks, a query if its values are texts or lists of at least
two texts, the body if it is read back, and headers if their names are different ones in small
letters. -/
def Arrives (address path : String) (t : Template) : RequestPart → Prop
  | .path => address = if path.toList.head? = some '/' then "" else "/"
  | .query => ∀ f ∈ t.query, Form.isGroup f.2 = true
  | .body => ∀ v ∈ t.body, Request.Returns t.headers v
  | .headers => (∀ h ∈ t.payload.1, h.1.toLower = h.1) ∧ (t.payload.1.map (·.1)).Nodup
  | .method => True
  | .rawBody => True
  | .jsonBody => True

/-- The value of a part in the document of a request that is sent. -/
def sentValue (t : Template) (verb : String) : RequestPart → Json
  | .method => .string verb
  | .path => .string t.url
  | .query => .object t.query
  | .body => t.body.getD .null
  | .rawBody => .string (t.payload.2.getD "")
  | .jsonBody => (t.payload.2.bind Json.parse?).getD .null
  | .headers => .object t.payload.1.fields

/-- The value of a part in the document of a request that is received. -/
def receivedValue (r : Request) (basePath : String) : RequestPart → Json
  | .method => .string r.method
  | .path => .string (Request.pathBelow basePath r.path)
  | .query => .object r.queryFields
  | .body => r.parsedBody
  | .rawBody => .string r.body
  | .jsonBody => r.jsonBody?.getD .null
  | .headers => .object r.headerFields

variable {t : Template} {verb basePath path : String}

theorem fieldOf?_sent (part : RequestPart) (t : Template) (verb : String) :
    fieldOf? "req" part.name (t.document verb) = some (part.sentValue t verb) := by
  cases part <;> rfl

theorem fieldOf?_received (part : RequestPart) (r : Request) (basePath : String) :
    fieldOf? "req" part.name (r.document basePath) = some (part.receivedValue r basePath) := by
  cases part <;> rfl

/-- A part has the same value in both documents exactly if it is seen as it was sent. -/
theorem sentValue_eq_iff {address : String} (hurl : t.url = address ++ path)
    (hnames : (t.query.map (·.1)).Nodup) (part : RequestPart) :
    part.sentValue t verb
        = part.receivedValue ((t.request verb).arriving (basePath ++ path)) basePath ↔
      part.Arrives address path t := by
  cases part with
  | method => exact iff_of_true rfl trivial
  | path =>
    have hpath := Request.pathBelow_eq_iff address basePath path
    simp only [sentValue, receivedValue, Arrives, Json.string.injEq, hurl]
    exact hpath
  | query =>
    have hgrouped := Form.grouped_eq_iff t.query
    rw [and_iff_right hnames, eq_comm] at hgrouped
    simp only [sentValue, Json.object.injEq, Arrives, ← hgrouped, receivedValue]
    rfl
  | body =>
    simp only [sentValue, receivedValue, Arrives]
    cases hbody : t.body with
    | none =>
      have htext : ((t.request verb).arriving (basePath ++ path)).body = "" := by
        rw [Template.request, Template.payload, hbody]
        rfl
      rw [Request.parsedBody, htext]
      exact iff_of_true rfl (by simp)
    | some v =>
      have hpayload : t.payload = WireRequest.encodeBody t.headers v := by
        rw [Template.payload, hbody]
      have hreceived : v = ((t.request verb).arriving (basePath ++ path)).parsedBody ↔
          Request.Returns t.headers v := by
        refine Request.parsedBody_eq_iff ?_ ?_ <;> rw [← hpayload] <;> rfl
      simpa using hreceived
  | rawBody => exact iff_of_true rfl trivial
  | jsonBody =>
    refine iff_of_true ?_ trivial
    have hread (text : Option String) :
        (text.bind Json.parse?).getD .null = (Json.parse? (text.getD "")).getD .null := by
      cases text <;> rfl
    exact hread t.payload.2
  | headers =>
    simp only [sentValue, receivedValue, Arrives, Json.object.injEq, Request.headerFields_eq]
    exact Pairs.fields_eq_joined_iff t.payload.1

end RequestPart

/-! ## What is drawn -/

namespace Template

variable {now : Instant}

theorem yields_anything {α : Type} (g : Generator α) : g.Yields fun _ => True :=
  fun _ _ _ => trivial

/-- No two values are drawn for one name. -/
theorem yields_distinct [Library] {known : List (String × Json)} (h : (known.map (·.1)).Nodup)
    (query : List QueryRule) :
    (drawQuery now known query).Yields fun fields => (fields.map (·.1)).Nodup := by
  induction query generalizing known with
  | nil => exact .pure h
  | cons rule rest ih =>
    refine (yields_anything _).bind fun name _ => (yields_anything _).bind fun v _ => ih ?_
    rw [Json.setField_eq_alter]
    exact nodup_keys_alter h

/-- A request is drawn below its address, with different names in its query. -/
theorem yields_below [Library] (baseUrl : String) (rule : RequestRule) :
    (draw now baseUrl rule).Yields fun t =>
      (∃ path, t.url = baseUrl ++ path) ∧ (t.query.map (·.1)).Nodup := by
  refine (yields_anything _).bind fun path _ => ?_
  have hstart : (([] : List (String × Json)).map (·.1)).Nodup := List.nodup_nil
  refine (yields_distinct hstart rule.query).bind fun query hquery => ?_
  refine (yields_anything _).bind fun headers _ => (yields_anything _).bind fun body _ => ?_
  exact .pure ⟨⟨path.plainText, rfl⟩, hquery⟩

end Template

/-! ## Queries -/

theorem RequestPart.parse_query (part : RequestPart) : Extraction.parse? ("$.req." ++ part.name)
    = some ⟨"$.req." ++ part.name, .ofRoot [.child [.name "req"], .child [.name part.name]]⟩ := by
  cases part <;> rfl

/-- What is read as a query starts at the root. -/
theorem Extraction.root_of_parse {expression : String} {e : Extraction}
    (h : Extraction.parse? expression = some e) : ∃ segments, e.query = .ofRoot segments := by
  obtain ⟨q, hq, rfl⟩ := Option.map_eq_some_iff.mp h
  rw [JsonPath.Query.parse?] at hq
  split at hq
  · split at hq
    · exact ⟨_, (Option.some.inj hq).symm⟩
    · cases hq
  · cases hq

/-- Whether a query reads some parts of requests only, wherever it starts at the root. -/
def Extraction.readsOnly (parts : List RequestPart) (e : Extraction) : Bool :=
  e.query.reads "req" (parts.map RequestPart.name)

theorem RequestPart.readsOnly_query {part : RequestPart} {parts : List RequestPart}
    (h : part ∈ parts) (expression : String) :
    Extraction.readsOnly parts
      ⟨expression, .ofRoot [.child [.name "req"], .child [.name part.name]]⟩ = true := by
  have hname : (parts.map RequestPart.name).contains part.name = true :=
    List.contains_iff_mem.mpr (List.mem_map_of_mem h)
  simp only [Extraction.readsOnly, JsonPath.Query.reads, JsonPath.goesTo, hname,
    JsonPath.segmentsRead, JsonPath.Segment.reads, JsonPath.selectorsRead, JsonPath.Selector.reads,
    decide_true, Bool.and_self]

/-- The query for a part selects its value. -/
theorem RequestPart.select_query [Library] (part : RequestPart) (expression : String)
    {document v : Json} (h : fieldOf? "req" part.name document = some v) :
    Extraction.select ⟨expression, .ofRoot [.child [.name "req"], .child [.name part.name]]⟩
      document = [v] := by
  rw [Extraction.select, JsonPath.Query.select, JsonPath.throughSegments_field, h]
  rfl

theorem Extraction.evaluate_eq_iff [Library] (e : Extraction) (a b : Context) :
    (Constraint.extraction e).evaluate a = (Constraint.extraction e).evaluate b ↔
      e.select a.document = e.select b.document := by
  rw [Constraint.evaluate, Constraint.evaluate, Constraint.constant.injEq, Json.array.injEq]

/-- The queries that read some parts only select alike in both documents exactly if these parts are
seen as they were sent. -/
theorem Template.evaluate_iff [Library] {t : Template} {address path : String}
    (hurl : t.url = address ++ path) (hnames : (t.query.map (·.1)).Nodup) (verb basePath : String)
    (parts : List RequestPart) :
    (∀ expression e, Extraction.parse? expression = some e → e.readsOnly parts = true →
      (Constraint.extraction e).evaluate ⟨t.document verb, .test⟩
        = (Constraint.extraction e).evaluate
          (((t.request verb).arriving (basePath ++ path)).context basePath)) ↔
      ∀ part ∈ parts, part.Arrives address path t := by
  set received := (t.request verb).arriving (basePath ++ path)
  have hpart (part : RequestPart) : part.sentValue t verb = part.receivedValue received basePath ↔
      part.Arrives address path t := part.sentValue_eq_iff hurl hnames
  constructor
  · intro hall part hmem
    have hsent := part.select_query ("$.req." ++ part.name) (part.fieldOf?_sent t verb)
    have hreceived := part.select_query ("$.req." ++ part.name)
      (part.fieldOf?_received received basePath)
    have heq := (Extraction.evaluate_eq_iff _ _ _).mp
      (hall _ _ part.parse_query (part.readsOnly_query hmem _))
    exact (hpart part).mp (List.singleton_inj.mp (hsent.symm.trans (heq.trans hreceived)))
  · intro harrive expression e hparse hreads
    have hagree : AgreeOn "req" (parts.map RequestPart.name) (t.document verb)
        (received.document basePath) := by
      intro name hname
      obtain ⟨part, hmem, rfl⟩ := List.mem_map.mp hname
      rw [part.fieldOf?_sent, part.fieldOf?_received, (hpart part).mpr (harrive part hmem)]
    obtain ⟨segments, hroot⟩ := Extraction.root_of_parse hparse
    refine (Extraction.evaluate_eq_iff e _ _).mpr ?_
    calc e.select (t.document verb)
        = e.query.select (received.document basePath) (t.document verb) :=
          e.query.select_agree hagree hreads _
      _ = e.select (received.document basePath) := by
          rw [Extraction.select, hroot]
          rfl

namespace WireTest

/-- Let a request be drawn for a version on a server, and let a stub for the version receive it
unchanged. The queries that read some of its parts only are evaluated alike in the document of the
test and in that of the stub exactly if these parts are seen as they were sent. -/
theorem evaluate_sent_iff [Library] {now : Instant} {server : String} {app : App}
    {version : Version} {rule : RequestRule} {draws left : Draws} {t : Template}
    (hdraw : (Template.draw now (baseUrl server app version) rule).run draws = (.ok t, left))
    (method : String) :
    let basePath := version.basePath app.basePath
    ∃ path, t.url = server ++ basePath ++ path ∧ ∀ parts : List RequestPart,
      (∀ expression e, Extraction.parse? expression = some e → e.readsOnly parts = true →
        (Constraint.extraction e).evaluate ⟨t.document method, .test⟩
          = (Constraint.extraction e).evaluate
            (((t.request method).arriving (basePath ++ path)).context basePath)) ↔
      ∀ part ∈ parts, part.Arrives (server ++ basePath) path t := by
  have hok : ((Template.draw now (baseUrl server app version) rule).run draws).1 = .ok t := by
    rw [hdraw]
  obtain ⟨⟨path, hurl⟩, hnames⟩ := Template.yields_below _ rule draws t hok
  exact ⟨path, hurl, Template.evaluate_iff hurl hnames method (version.basePath app.basePath)⟩

/-- Requests with a text in each part. -/
def textRule : RequestRule :=
  { path := .constant (.string "/x")
    query := [⟨.constant (.string "q"), .constant (.string "a")⟩]
    headers := [("x-id", .constant (.string "1"))]
    body := some (.constant (.string "hi")) }

/-- What is drawn for them on a server. -/
def textTemplate : Template :=
  ⟨"http://s.test" ++ "" ++ "/x", [("q", .string "a")], [("x-id", "1")], some (.string "hi")⟩

section Simple

attribute [local instance] Library.simple

/-- What the test and the stub see of them is the same in all parts but the path. -/
theorem evaluate_sent_iff_texts :
    (Template.draw ⟨0, 0⟩ (baseUrl "http://s.test" {} {}) textRule).run ⟨id, 0⟩
        = (.ok textTemplate, ⟨id, 0⟩)
      ∧ ∃ path, textTemplate.url = "http://s.test" ++ "" ++ path
      ∧ (∀ expression e, Extraction.parse? expression = some e →
        e.readsOnly [.method, .query, .body, .rawBody, .jsonBody, .headers] = true →
        (Constraint.extraction e).evaluate ⟨textTemplate.document "POST", .test⟩
          = (Constraint.extraction e).evaluate
            (((textTemplate.request "POST").arriving ("" ++ path)).context ""))
      ∧ ¬ ∀ expression e, Extraction.parse? expression = some e → e.readsOnly [.path] = true →
        (Constraint.extraction e).evaluate ⟨textTemplate.document "POST", .test⟩
          = (Constraint.extraction e).evaluate
            (((textTemplate.request "POST").arriving ("" ++ path)).context "") := by
  have hdraw : (Template.draw ⟨0, 0⟩ (baseUrl "http://s.test" {} {}) textRule).run ⟨id, 0⟩
      = (.ok textTemplate, ⟨id, 0⟩) := rfl
  obtain ⟨path, hurl, hiff⟩ := evaluate_sent_iff hdraw "POST"
  obtain rfl : path = "/x" := ((String.append_right_inj _).mp hurl).symm
  refine ⟨hdraw, "/x", hurl, (hiff _).mpr ?_, fun hall => ?_⟩
  · intro part hmem
    cases part with
    | path => exact absurd hmem (by decide)
    | query =>
      intro f hf
      obtain rfl := List.mem_singleton.mp hf
      rfl
    | body =>
      rintro v ⟨⟩
      refine .inr ?_
      rw [if_neg (by decide +kernel)]
      exact ⟨by decide, rfl⟩
    | headers =>
      have hpayload : textTemplate.payload.1 = [("x-id", "1")] := by decide +kernel
      rw [RequestPart.Arrives, hpayload]
      exact ⟨by decide +kernel, List.nodup_singleton _⟩
    | _ => trivial
  · have hpath : "http://s.test" ++ "" = if "/x".toList.head? = some '/' then "" else "/" :=
      (hiff [.path]).mp hall .path List.mem_cons_self
    exact absurd hpath (by decide)

end Simple

end WireTest

end HttpContract
