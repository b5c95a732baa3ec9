import HttpContract.Http.Message
import HttpContract.Json.Printer
import HttpContract.Store.Basic

/-!
# Admin.Reply — the answers of the administration

Answers are JSON, laid out over lines. An answer whose headers may not be sent is replaced by a
plain one, whatever was done.
-/

namespace HttpContract.Admin

/-- The answer in the place of one that cannot be sent. -/
def unsendable : HttpResponse := { status := 200, body := "Internal Server Error" }

/-- An answer with headers, if they may be sent. -/
def answer (status : Nat) (headers : Pairs) (body : String) : HttpResponse :=
  if headers.all fun h => Http.isName h.1 && Http.isValue h.2 then ⟨status, headers, body⟩
  else unsendable

/-- An answer in JSON. -/
def jsonAnswer (status : Nat) (v : Json) : HttpResponse :=
  answer status [("content-type", "application/json")] v.prettyText

/-- The answer if something was created, with the path at which it is found. -/
def created (location : String) (v : Json) : HttpResponse :=
  answer 201 [("content-type", "application/json"), ("location", location)] v.prettyText

/-- The answer if there is nothing to say. -/
def noContent : HttpResponse := { status := 204 }

/-- The answer to a request that fails. -/
def errorAnswer (status : Nat) (message : String) : HttpResponse :=
  jsonAnswer status (.object [("errors", .array [
    .object [("code", .string (toString status)), ("message", .string message)]])])

/-- The answer to a request about nothing. -/
def notFound : HttpResponse := errorAnswer 404 "Not Found"

/-- The answer if the store refuses. -/
def storeErrorAnswer (e : StoreError) : HttpResponse := errorAnswer e.status e.message

/-- An answer with a value of the store. -/
def storeAnswer {α : Type} (ok : α → HttpResponse) (r : Except StoreError α) : HttpResponse :=
  match r with
  | .ok a => ok a
  | .error e => storeErrorAnswer e

/-! ## Bodies -/

/-- The blanks of a body in JSON. -/
def isBlankByte (b : UInt8) : Bool := [9, 10, 12, 13, 32].contains b

/-- What a body in JSON describes; a blank one describes what `blank` is. -/
def readJson {α : Type} (what : String) (blank : α) (of? : Json.Raw → Option α) (r : HttpRequest) :
    Except HttpResponse α :=
  if r.body.all isBlankByte then .ok blank
  else match (Json.Raw.parse? r.body).bind of? with
    | some a => .ok a
    | none => .error (errorAnswer 400 ("Invalid " ++ what ++ " JSON: not what is expected"))

/-- Whether a header of a request says that something is JSON. -/
def saysJson (r : HttpRequest) (header : String) : Bool :=
  match Http.header? r header with
  | some value => "application/json".toList.isPrefixOf value.toList
  | none => false

end HttpContract.Admin
