import HttpContract.Contract.Respond
import HttpContract.Library.Simple
import HttpContract.Proofs.Contract.Closed

/-!
# Contract — how responses are made

Values are drawn for the parts of a response one after the other, the headers in the order of their
declaration, then the status, then the body (`ResponseRule.inOrder`). There is no response exactly
if one of them cannot be drawn or is no status. The first of these is told, unless drawing it is
broken off: then the response is broken off with it, and nothing is told (`respond_error_iff`). A
response is sent with its headers, to which at most a content type is added
that says how its body is read (`Response.added_cases`, `Response.received_payload`).
-/

namespace HttpContract

open Calendar (Instant)

variable {now : Instant} {ctx : Context}

/-! ## Parts in their order -/

/-- The parts of a response in the order in which values are drawn for them. -/
def ResponseRule.inOrder (rule : ResponseRule) : List (ResponsePart × Constraint) :=
  rule.headers.map (fun h => (.header h.1, h.2))
    ++ (.status, rule.status) :: rule.body.toList.map fun c => (.body, c)

/-- Whether a value may stand for a part: a status is a whole number from 100 to 999. -/
def ResponsePart.Allows (part : ResponsePart) (v : Json) : Prop :=
  part = .status → ∃ n : Nat, 100 ≤ n ∧ n ≤ 999 ∧ v = Json.ofInt n

theorem Response.statusOf?_eq_some {v : Json} {n : Nat} :
    statusOf? v = some n ↔ 100 ≤ n ∧ n ≤ 999 ∧ v = Json.ofInt n := by
  constructor
  · intro h
    unfold statusOf? at h
    split at h
    · rename_i m
      rw [Option.ite_none_right_eq_some, Option.some.injEq] at h
      refine ⟨by omega, by omega, ?_⟩
      rw [Json.ofInt, Json.WordInt.ofInt_val]
      omega
    · cases h
  · rintro ⟨hlow, hhigh, rfl⟩
    have hval : (Json.WordInt.ofInt n).val = n := Json.WordInt.val_ofInt (by omega) (by omega)
    simp only [Json.ofInt, statusOf?, hval, Int.toNat_natCast]
    exact if_pos (by omega)

theorem ResponsePart.allows_iff {part : ResponsePart} {v : Json} :
    part.Allows v ↔ ¬(part = .status ∧ Response.statusOf? v = none) := by
  simp only [Allows, not_and, Option.eq_none_iff_forall_ne_some, not_forall, not_not,
    Response.statusOf?_eq_some, ne_eq, exists_prop]

namespace Contract

/-- Values are drawn for parts, one after the other, each of them from the random numbers that the
ones before have left, and each may stand for its part. -/
inductive Drawn [Library] (now : Instant) (ctx : Context) :
    List (ResponsePart × Constraint) → Draws → List Json → Draws → Prop where
  | nil {draws : Draws} : Drawn now ctx [] draws [] draws
  | cons {part : ResponsePart} {c : Constraint} {parts : List (ResponsePart × Constraint)}
    {draws between behind : Draws} {v : Json} {vs : List Json}
    (hdrawn : ((c.evaluate ctx).mock now).run draws = (.ok v, between)) (hallowed : part.Allows v)
    (hrest : Drawn now ctx parts between vs behind) :
    Drawn now ctx ((part, c) :: parts) draws (v :: vs) behind

/-- Why a part has no value: none can be drawn, or what is drawn is no status, and both name the
part; or drawing is broken off, which names nothing. -/
inductive Refused [Library] (now : Instant) (ctx : Context) (draws : Draws) :
    ResponsePart × Constraint → Failure ResponseError → Prop where
  | undrawn {part : ResponsePart} {c : Constraint} {cause : Constraint.Error}
    (h : (((c.evaluate ctx).mock now).run draws).1 = .error (.reason cause)) :
    Refused now ctx draws (part, c) (.reason (.part part cause))
  | notStatus {c : Constraint} {v : Json}
    (h : (((c.evaluate ctx).mock now).run draws).1 = .ok v)
    (hstatus : ¬ResponsePart.status.Allows v) :
    Refused now ctx draws (.status, c) (.reason (.invalidStatus v))
  | brokenOff {part : ResponsePart} {c : Constraint}
    (h : (((c.evaluate ctx).mock now).run draws).1 = .error .brokenOff) :
    Refused now ctx draws (part, c) .brokenOff

/-- How the first of some parts that has no value ends. -/
def FirstRefused [Library] (now : Instant) (ctx : Context)
    (parts : List (ResponsePart × Constraint)) (draws : Draws) (e : Failure ResponseError) : Prop :=
  ∃ before part behind vs draws', parts = before ++ part :: behind
    ∧ Drawn now ctx before draws vs draws' ∧ Refused now ctx draws' part e

/-! ## Drawing one after the other -/

/-- What is drawn for a part, if it may stand for the part. -/
def judged (part : ResponsePart) :
    Except (Failure Constraint.Error) Json → Except (Failure ResponseError) Json
  | .error failure => .error (failure.map (.part part))
  | .ok v =>
    if part = .status ∧ Response.statusOf? v = none then .error (.reason (.invalidStatus v))
    else .ok v

theorem judged_ok_iff {part : ResponsePart} {r : Except (Failure Constraint.Error) Json}
    {v : Json} : judged part r = .ok v ↔ r = .ok v ∧ part.Allows v := by
  cases r with
  | error failure => exact ⟨nofun, nofun⟩
  | ok w =>
    rw [judged, ResponsePart.allows_iff]
    split
    · rename_i hstatus
      refine ⟨nofun, fun h => ?_⟩
      cases h.1
      exact absurd hstatus h.2
    · rename_i hstatus
      constructor
      · intro h
        cases h
        exact ⟨rfl, hstatus⟩
      · rintro ⟨h, -⟩
        cases h
        rfl

theorem judged_error_iff {part : ResponsePart} {r : Except (Failure Constraint.Error) Json}
    {e : Failure ResponseError} :
    judged part r = .error e
      ↔ (∃ failure, r = .error failure ∧ e = failure.map (.part part))
      ∨ ∃ v, r = .ok v ∧ part = .status ∧ ¬ResponsePart.status.Allows v
        ∧ e = .reason (.invalidStatus v) := by
  cases r with
  | error failure => simp [judged, eq_comm]
  | ok v =>
    rw [judged]
    split
    · rename_i hstatus
      obtain ⟨rfl, hnone⟩ := hstatus
      simp [ResponsePart.allows_iff, hnone, eq_comm]
    · rename_i hstatus
      refine ⟨nofun, ?_⟩
      rintro (⟨failure, hfailure, -⟩ | ⟨w, hw, rfl, hnot, -⟩)
      · cases hfailure
      · cases hw
        exact absurd (ResponsePart.allows_iff.mpr hstatus) hnot

/-- Draws a value that may stand for a part. -/
def drawPart [Library] (now : Instant) (ctx : Context) (p : ResponsePart × Constraint) :
    Responder Json :=
  ExceptT.mk do return judged p.1 (← ((p.2.evaluate ctx).mock now).run)

/-- Draws values for parts in their order. -/
def drawAll [Library] (now : Instant) (ctx : Context) :
    List (ResponsePart × Constraint) → Responder (List Json)
  | [] => return []
  | p :: rest => do
    let v ← drawPart now ctx p
    let vs ← drawAll now ctx rest
    return v :: vs

theorem run_drawPart [Library] (p : ResponsePart × Constraint) (draws : Draws) :
    (drawPart now ctx p).run draws
      = (judged p.1 (((p.2.evaluate ctx).mock now).run draws).1,
        (((p.2.evaluate ctx).mock now).run draws).2) := rfl

/-- A part has the value that is drawn for it, if this may stand for it. -/
theorem drawPart_ok_iff [Library] {part : ResponsePart} {c : Constraint} {draws behind : Draws}
    {v : Json} :
    (drawPart now ctx (part, c)).run draws = (.ok v, behind)
      ↔ ((c.evaluate ctx).mock now).run draws = (.ok v, behind) ∧ part.Allows v := by
  rw [run_drawPart, Prod.mk.injEq, judged_ok_iff, Prod.ext_iff, and_right_comm]

/-- What is wrong with a part is that nothing is drawn for it, or that it is no status. -/
theorem drawPart_error_iff [Library] {p : ResponsePart × Constraint} {draws : Draws}
    {e : Failure ResponseError} :
    ((drawPart now ctx p).run draws).1 = .error e ↔ Refused now ctx draws p e := by
  obtain ⟨part, c⟩ := p
  rw [run_drawPart, judged_error_iff]
  constructor
  · rintro (⟨cause | -, hfailure, rfl⟩ | ⟨v, hv, rfl, hstatus, rfl⟩)
    · exact .undrawn hfailure
    · exact .brokenOff hfailure
    · exact .notStatus hv hstatus
  · intro h
    cases h with
    | undrawn h => exact .inl ⟨_, h, rfl⟩
    | notStatus h hstatus => exact .inr ⟨_, h, rfl, hstatus, rfl⟩
    | brokenOff h => exact .inl ⟨_, h, rfl⟩

/-- All parts have values exactly if these are drawn for them. -/
theorem drawAll_ok_iff [Library] {parts : List (ResponsePart × Constraint)} {draws behind : Draws}
    {vs : List Json} :
    (drawAll now ctx parts).run draws = (.ok vs, behind) ↔ Drawn now ctx parts draws vs behind := by
  induction parts generalizing draws vs with
  | nil =>
    constructor
    · intro h
      cases h
      exact .nil
    · intro h
      cases h
      rfl
  | cons p rest ih =>
    obtain ⟨part, c⟩ := p
    -- the rest is drawn from what the first part has left, whatever that is
    rw [drawAll, run_bind_ok_iff]
    constructor
    · rintro ⟨v, between, hfirst, hlater⟩
      obtain ⟨ws, last, hrest, hmade⟩ := run_bind_ok_iff.mp hlater
      cases hmade
      obtain ⟨hdrawn, hallowed⟩ := drawPart_ok_iff.mp hfirst
      exact .cons hdrawn hallowed (ih.mp hrest)
    · intro h
      cases h with
      | cons hdrawn hallowed hrest =>
        exact ⟨_, _, drawPart_ok_iff.mpr ⟨hdrawn, hallowed⟩,
          run_bind_ok_iff.mpr ⟨_, _, ih.mpr hrest, rfl⟩⟩

/-- The first part that has no value is the first of all, or comes behind it if it has one. -/
theorem firstRefused_cons [Library] {p : ResponsePart × Constraint}
    {parts : List (ResponsePart × Constraint)} {draws : Draws} {e : Failure ResponseError} :
    FirstRefused now ctx (p :: parts) draws e ↔ Refused now ctx draws p e
      ∨ ∃ v between, (drawPart now ctx p).run draws = (.ok v, between)
        ∧ FirstRefused now ctx parts between e := by
  constructor
  · rintro ⟨_ | ⟨q, before⟩, part, behind, vs, draws', hparts, hdrawn, hrefused⟩
    · cases hparts
      cases hdrawn
      exact .inl hrefused
    · rw [List.cons_append, List.cons.injEq] at hparts
      obtain ⟨rfl, rfl⟩ := hparts
      cases hdrawn with
      | cons hfirst hallowed hrest =>
        exact .inr ⟨_, _, drawPart_ok_iff.mpr ⟨hfirst, hallowed⟩, before, part, behind, _, draws',
          rfl, hrest, hrefused⟩
  · rintro (hrefused | ⟨v, between, hfirst, before, part, behind, vs, draws', rfl, hrest, hrefused⟩)
    · exact ⟨[], p, parts, [], draws, rfl, .nil, hrefused⟩
    · obtain ⟨hdrawn, hallowed⟩ := drawPart_ok_iff.mp hfirst
      exact ⟨p :: before, part, behind, v :: vs, draws', rfl, .cons hdrawn hallowed hrest, hrefused⟩

/-- Not all parts have values exactly if there is a first one that has none, and all end as it
does. -/
theorem drawAll_error_iff [Library] {parts : List (ResponsePart × Constraint)} {draws : Draws}
    {e : Failure ResponseError} :
    ((drawAll now ctx parts).run draws).1 = .error e ↔ FirstRefused now ctx parts draws e := by
  induction parts generalizing draws with
  | nil =>
    constructor
    · exact nofun
    · rintro ⟨before, part, behind, vs, draws', hparts, -⟩
      cases before <;> cases hparts
  | cons p rest ih =>
    rw [firstRefused_cons, drawAll, run_bind_error_iff, drawPart_error_iff]
    refine or_congr_right (exists₂_congr fun v between => and_congr_right fun _ => ?_)
    rw [run_bind_error_iff, ih]
    -- putting the values together does not fail
    exact or_iff_left (fun ⟨_, _, _, h⟩ => nomatch h)

/-- The values of parts and of the parts behind them. -/
theorem drawn_append [Library] {first second : List (ResponsePart × Constraint)}
    {draws behind : Draws} {vs : List Json} :
    Drawn now ctx (first ++ second) draws vs behind ↔ ∃ us ws between, vs = us ++ ws
      ∧ Drawn now ctx first draws us between ∧ Drawn now ctx second between ws behind := by
  constructor
  · intro h
    induction first generalizing draws vs with
    | nil => exact ⟨[], vs, draws, rfl, .nil, h⟩
    | cons p rest ih =>
      cases h with
      | cons hdrawn hallowed hrest =>
        obtain ⟨us, ws, between, rfl, hfirst, hsecond⟩ := ih hrest
        exact ⟨_ :: us, ws, between, rfl, .cons hdrawn hallowed hfirst, hsecond⟩
  · rintro ⟨us, ws, between, rfl, hfirst, hsecond⟩
    induction hfirst with
    | nil => exact hsecond
    | cons hdrawn hallowed _ ih => exact .cons hdrawn hallowed (ih hsecond)

theorem Drawn.length_eq [Library] {parts : List (ResponsePart × Constraint)} {draws behind : Draws}
    {vs : List Json} (h : Drawn now ctx parts draws vs behind) : vs.length = parts.length := by
  induction h with
  | nil => rfl
  | cons _ _ _ ih => rw [List.length_cons, List.length_cons, ih]

/-! ## The response -/

theorem drawAll_append [Library] (first second : List (ResponsePart × Constraint)) :
    drawAll now ctx (first ++ second) = do
      let vs ← drawAll now ctx first
      let ws ← drawAll now ctx second
      return vs ++ ws := by
  induction first with
  | nil => simp [drawAll]
  | cons p rest ih => simp [drawAll, ih]

theorem resolvePart_eq_drawPart [Library] {part : ResponsePart} (h : part ≠ .status)
    (c : Constraint) : resolvePart now ctx part c = drawPart now ctx (part, c) := by
  refine ExceptT.ext (funext fun draws => ?_)
  rw [resolvePart, Attempt.run_mapReason, run_drawPart, Constraint.resolve]
  cases (((c.evaluate ctx).mock now).run draws).1 with
  | error failure => rfl
  | ok v =>
    rw [judged, if_neg fun hstatus => h hstatus.1]
    rfl

/-- A response is made only if the value that is drawn for its status is one. -/
theorem resolveStatus_eq [Library] {α : Type} (c : Constraint) (f : Nat → Responder α) :
    (do
      let v ← resolvePart now ctx .status c
      match Response.statusOf? v with
      | none => Attempt.fail (.invalidStatus v)
      | some status => f status)
      = drawPart now ctx (.status, c) >>= fun v => f ((Response.statusOf? v).getD 0) := by
  refine ExceptT.ext (funext fun draws => ?_)
  rw [run_bind, run_bind, resolvePart, Attempt.run_mapReason, run_drawPart, Constraint.resolve]
  rcases ((c.evaluate ctx).mock now).run draws with ⟨failure | v, rest⟩
  · rfl
  · -- a value that is no status is refused when it is drawn, and any other is the one it means
    cases hstatus : Response.statusOf? v with
    | none =>
      simp [judged, Except.mapError, hstatus]
      rfl
    | some status => simp [judged, Except.mapError, hstatus]

theorem resolveHeaders_eq [Library] (headers : List (String × Constraint)) :
    resolveHeaders now ctx headers = do
      let vs ← drawAll now ctx (headers.map fun h => (.header h.1, h.2))
      return sentHeaders ((headers.map (·.1)).zip vs) := by
  induction headers with
  | nil => simp [drawAll, resolveHeaders, sentHeaders]
  | cons h rest ih =>
    obtain ⟨name, c⟩ := h
    simp [drawAll, resolveHeaders, ih, resolvePart_eq_drawPart, sentHeaders]

theorem resolveBody_eq [Library] (body : Option Constraint) :
    resolveBody now ctx body = do
      let vs ← drawAll now ctx (body.toList.map fun c => (.body, c))
      return vs.head? := by
  cases body with
  | none => simp [resolveBody, drawAll]
  | some c => simp [resolveBody, drawAll, resolvePart_eq_drawPart]

/-- A response is made of the values that are drawn for its parts. -/
theorem respond_eq [Library] (c : Contract) (basePath : String) (request : Request) :
    c.respond now basePath request = do
      let vs ← drawAll now (request.context basePath)
        (c.response.headers.map fun h => (.header h.1, h.2))
      let v ← drawPart now (request.context basePath) (.status, c.response.status)
      let ws ← drawAll now (request.context basePath)
        (c.response.body.toList.map fun c => (.body, c))
      return ⟨(Response.statusOf? v).getD 0,
        sentHeaders ((c.response.headers.map (·.1)).zip vs), ws.head?⟩ := by
  simp only [respond, resolveHeaders_eq, resolveBody_eq, bind_assoc, pure_bind]
  exact bind_congr fun vs => resolveStatus_eq _ _

/-- There is no response exactly if values are not drawn for all of its parts. -/
theorem respond_error_iff [Library] {c : Contract} {basePath : String} {request : Request}
    {draws : Draws} {e : Failure ResponseError} :
    ((c.respond now basePath request).run draws).1 = .error e
      ↔ FirstRefused now (request.context basePath) c.response.inOrder draws e := by
  have hpure {α : Type} (a : α) (draws : Draws) :
      ((pure a : Responder α).run draws).1 = .error e ↔ False := ⟨nofun, nofun⟩
  -- both sides are the same steps up to the last, which only returns
  rw [respond_eq, ← drawAll_error_iff, ResponseRule.inOrder, drawAll_append, drawAll]
  simp only [run_bind_error_iff, hpure, and_false, exists_false, or_false]

/-- A response is made exactly of values that are drawn for all of its parts. -/
theorem respond_ok_iff [Library] {c : Contract} {basePath : String} {request : Request}
    {draws behind : Draws} {r : Response} :
    (c.respond now basePath request).run draws = (.ok r, behind)
      ↔ ∃ (headers : List Json) (status : Nat) (body : List Json),
        headers.length = c.response.headers.length ∧ 100 ≤ status ∧ status ≤ 999
        ∧ Drawn now (request.context basePath) c.response.inOrder draws
          (headers ++ Json.ofInt status :: body) behind
        ∧ r = ⟨status, sentHeaders ((c.response.headers.map (·.1)).zip headers), body.head?⟩ := by
  rw [respond_eq]
  constructor
  · intro h
    obtain ⟨headers, between, hheaders, hothers⟩ := run_bind_ok_iff.mp h
    obtain ⟨v, last, hstatus, hrest⟩ := run_bind_ok_iff.mp hothers
    obtain ⟨body, behind, hbody, hmade⟩ := run_bind_ok_iff.mp hrest
    obtain ⟨hdrawn, hallowed⟩ := drawPart_ok_iff.mp hstatus
    obtain ⟨status, hlow, hhigh, rfl⟩ := hallowed rfl
    rw [Response.statusOf?_eq_some.mpr ⟨hlow, hhigh, rfl⟩, Option.getD_some] at hmade
    cases hmade
    rw [drawAll_ok_iff] at hheaders hbody
    refine ⟨headers, status, body, ?_, hlow, hhigh,
      drawn_append.mpr ⟨_, _, _, rfl, hheaders, .cons hdrawn hallowed hbody⟩, rfl⟩
    rw [hheaders.length_eq, List.length_map]
  · rintro ⟨headers, status, body, hlength, hlow, hhigh, hdrawn, rfl⟩
    obtain ⟨us, ws, between, heq, hheaders, hothers⟩ := drawn_append.mp hdrawn
    obtain ⟨rfl, rfl⟩ := List.append_inj heq (by rw [hlength, hheaders.length_eq, List.length_map])
    cases hothers with
    | cons hstatus hallowed hbody =>
      refine run_bind_ok_iff.mpr ⟨_, _, drawAll_ok_iff.mpr hheaders, run_bind_ok_iff.mpr ⟨_, _,
        drawPart_ok_iff.mpr ⟨hstatus, hallowed⟩, run_bind_ok_iff.mpr ⟨_, _,
          drawAll_ok_iff.mpr hbody, ?_⟩⟩⟩
      rw [Response.statusOf?_eq_some.mpr ⟨hlow, hhigh, rfl⟩, Option.getD_some]
      rfl

end Contract

/-! ## What is sent -/

theorem Pairs.isNone_header? {headers : Pairs} {key : String} :
    (headers.header? key).isNone = true ↔ ∀ f ∈ headers, f.1.toLower ≠ key.toLower := by
  simp [Pairs.header?, List.find?_eq_none]

namespace Response

/-- What is added to the headers of a response: the content type of its body, if none is declared
and the body is neither absent nor null. -/
def added (r : Response) : Pairs :=
  if (r.headers.header? "content-type").isNone then
    (payload r.body).2.toList.map fun mediaType => ("Content-Type", mediaType)
  else []

/-- Headers are sent as they are, with at most a content type behind them. -/
theorem encode_eq (r : Response) : r.encode = (r.headers ++ r.added, (payload r.body).1) := by
  unfold encode added
  rcases payload r.body with ⟨text, _ | mediaType⟩
  · simp
  · by_cases h : (r.headers.header? "content-type").isNone = true <;> simp [h]

theorem payload_isSome {body : Option Json} :
    (payload body).2.isSome = true ↔ body ≠ none ∧ body ≠ some .null := by
  rcases body with _ | (_ | _ | _ | _ | _ | _) <;> simp [payload]

/-- At most one header is added, the content type of a body that is neither absent nor null, exactly
if none is declared. -/
theorem added_cases (r : Response) :
    (r.added = [] ∨ ∃ mediaType, r.added = [("Content-Type", mediaType)])
    ∧ (r.added ≠ [] ↔ (∀ h ∈ r.headers, h.1.toLower ≠ "content-type")
      ∧ r.body ≠ none ∧ r.body ≠ some .null) := by
  rw [← payload_isSome, ← toLower_smallContentType, ← Pairs.isNone_header?, added]
  split
  · rename_i hnone
    cases (payload r.body).2 <;> simp [hnone]
  · rename_i hsome
    simp [hsome]

theorem name_of_added {r : Response} {f : String × String} (h : f ∈ r.added) :
    f.1.toLower = "content-type" := by
  obtain hnone | ⟨mediaType, hsome⟩ := r.added_cases.1
  · rw [hnone] at h
    cases h
  · rw [hsome, List.mem_singleton] at h
    rw [h, toLower_contentType]

/-- The body that a client reads from a text of a media type: a text is one, and JSON is parsed. -/
def received (mediaType : Option String) (text : String) : Option Json :=
  if mediaType = some "text/plain; charset=utf-8" then some (.string text)
  else if mediaType = some "application/json" then Json.parse? text
  else none

/-- A client reads the body that was sent; null is none. -/
theorem received_payload {body : Option Json}
    (hreread : ∀ v ∈ body, Json.parse? v.text = some v) :
    received (payload body).2 (payload body).1 = body.filter (!·.isNull) := by
  rcases body with _ | v
  · rfl
  · have hparsed := hreread v rfl
    cases v with
    | null | string => rfl
    | bool | number | array | object =>
      simp only [payload, received, hparsed]
      rfl

/-- The content type that is added if none is declared is that of the body. -/
theorem header?_added {r : Response} (h : ∀ f ∈ r.headers, f.1.toLower ≠ "content-type") :
    r.added.header? "content-type" = (payload r.body).2 := by
  rw [← toLower_smallContentType, ← Pairs.isNone_header?] at h
  rw [added, if_pos h]
  cases (payload r.body).2 with
  | none => rfl
  | some mediaType =>
    rw [Option.toList_some, List.map_singleton, Pairs.header?_cons, toLower_contentType,
      toLower_smallContentType, if_pos rfl]

end Response

namespace Contract

/-- What is sent for a request. A contract gives no response exactly if for one of its parts, in the
order of the headers, the status and the body, no value can be drawn or the value is no status. The
first of these is told, unless drawing a value for it is broken off: then so is the response, and
nothing is told. Otherwise the response is made of the values for its parts: the headers as they are
declared, without those whose value is null, the status and the body. A response is sent with its
headers, and at most a content type is added behind them, exactly if none is among them, whatever
its case, and there is a body that is not null. If none is among them, the body is what a client
reads from the text and the content type that is added, provided that its JSON text is read back. -/
theorem respond_encode [Library] (c : Contract) (now : Instant) (basePath : String)
    (request : Request) (draws : Draws) :
    (∀ e, ((c.respond now basePath request).run draws).1 = .error e
      ↔ FirstRefused now (request.context basePath) c.response.inOrder draws e)
    ∧ (∀ r behind, (c.respond now basePath request).run draws = (.ok r, behind)
      ↔ ∃ (headers : List Json) (status : Nat) (body : List Json),
        headers.length = c.response.headers.length ∧ 100 ≤ status ∧ status ≤ 999
        ∧ Drawn now (request.context basePath) c.response.inOrder draws
          (headers ++ Json.ofInt status :: body) behind
        ∧ r = ⟨status, sentHeaders ((c.response.headers.map (·.1)).zip headers), body.head?⟩)
    ∧ ∀ r : Response, ∃ added, r.encode.1 = r.headers ++ added
      ∧ (added = [] ∨ ∃ mediaType, added = [("Content-Type", mediaType)])
      ∧ (added ≠ [] ↔ (∀ h ∈ r.headers, h.1.toLower ≠ "content-type")
        ∧ r.body ≠ none ∧ r.body ≠ some .null)
      ∧ ((∀ h ∈ r.headers, h.1.toLower ≠ "content-type") →
        (∀ v ∈ r.body, Json.parse? v.text = some v) →
        Response.received (added.header? "content-type") r.encode.2
          = r.body.filter (!·.isNull)) := by
  refine ⟨fun e => respond_error_iff, fun r behind => respond_ok_iff, fun r => ⟨r.added, ?_⟩⟩
  obtain ⟨honce, hadded⟩ := r.added_cases
  refine ⟨by rw [Response.encode_eq], honce, hadded, fun hundeclared hreread => ?_⟩
  rw [Response.header?_added hundeclared, Response.encode_eq]
  exact Response.received_payload hreread

section Simple

attribute [local instance] Library.simple

/-- A content type that is null declares none. A header that has to be a date from the last day of
the calendar on breaks the response off. -/
theorem respond_encode_null :
    (∃ c r behind, ((Contract.compile {}
        "\x7bresponse: \x7bheaders: \x7b'content-TYPE': null, 'X-Key': 1\x7d, body: [1]\x7d\x7d").run
          ⟨fun n => n, 0⟩).1 = .ok c
      ∧ (c.respond ⟨0, 0⟩ "" {}).run ⟨fun n => n, 0⟩ = (.ok r, behind)
      ∧ r.headers = [("X-Key", "1")]
      ∧ ∃ mediaType, r.encode.1 = [("X-Key", "1"), ("Content-Type", mediaType)]
        ∧ Response.received mediaType r.encode.2 = r.body.filter (!·.isNull))
    ∧ ∃ c, ((Contract.compile {}
        ("\x7bresponse: \x7bheaders: \x7bd: "
          ++ "date(\x7bformat: 'YYYY-MM-DD', from: '+262142-12-31'\x7d)\x7d\x7d\x7d")).run
          ⟨fun n => n, 0⟩).1 = .ok c
      ∧ ((c.respond ⟨0, 0⟩ "" {}).run ⟨fun n => n, 0⟩).1 = .error .brokenOff
      ∧ FirstRefused ⟨0, 0⟩ (Request.context {} "") c.response.inOrder ⟨fun n => n, 0⟩
        .brokenOff := by
  constructor
  · obtain ⟨c, hcompile, hresponse⟩ : ∃ c, ((Contract.compile {}
        "\x7bresponse: \x7bheaders: \x7b'content-TYPE': null, 'X-Key': 1\x7d, body: [1]\x7d\x7d").run
          ⟨fun n => n, 0⟩).1 = .ok c
        ∧ (((c.respond ⟨0, 0⟩ "" {}).run ⟨fun n => n, 0⟩).1.toOption.any fun r =>
          decide (r.headers = [("X-Key", "1")] ∧ r.body.any (!·.isNull)
            ∧ ∀ v ∈ r.body, Json.parse? v.text = some v)) = true :=
      exists_ok_of_any (by decide +kernel)
    obtain ⟨r, hr, hchecks⟩ := exists_ok_of_any hresponse
    rw [decide_eq_true_eq] at hchecks
    obtain ⟨hheaders, hbody, hreread⟩ := hchecks
    have hundeclared : ∀ h ∈ r.headers, h.1.toLower ≠ "content-type" := by
      rw [hheaders]
      decide +kernel
    obtain ⟨added, hencode, honce, hadded, hreceived⟩ :=
      (respond_encode c ⟨0, 0⟩ "" {} ⟨fun n => n, 0⟩).2.2 r
    have hsome : r.body ≠ none ∧ r.body ≠ some .null := by
      constructor <;> intro h <;> rw [h] at hbody <;> cases hbody
    obtain ⟨mediaType, rfl⟩ := honce.resolve_left (hadded.mpr ⟨hundeclared, hsome⟩)
    have hread := hreceived hundeclared hreread
    rw [hheaders] at hencode
    refine ⟨c, r, _, hcompile, Prod.ext hr rfl, hheaders, mediaType, hencode, ?_⟩
    rwa [Pairs.header?_cons, toLower_contentType, toLower_smallContentType, if_pos rfl] at hread
  · obtain ⟨c, hcompile, hbroken⟩ : ∃ c, ((Contract.compile {}
        ("\x7bresponse: \x7bheaders: \x7bd: "
          ++ "date(\x7bformat: 'YYYY-MM-DD', from: '+262142-12-31'\x7d)\x7d\x7d\x7d")).run
          ⟨fun n => n, 0⟩).1 = .ok c
        ∧ Attempt.isBrokenOff ((c.respond ⟨0, 0⟩ "" {}).run ⟨fun n => n, 0⟩).1 = true :=
      exists_ok_of_any (by decide +kernel)
    rw [Attempt.isBrokenOff_iff] at hbroken
    exact ⟨c, hcompile, hbroken,
      ((respond_encode c ⟨0, 0⟩ "" {} ⟨fun n => n, 0⟩).1 .brokenOff).mp hbroken⟩

end Simple

end Contract

end HttpContract
