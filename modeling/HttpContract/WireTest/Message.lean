import HttpContract.Request.Basic

/-!
# WireTest.Message — requests to a server and its answers

What a wire test sends and receives. A query and a form have the texts of their values; a list gives
its name to each of its items and null is left out. A body is written as the content type says.
-/

namespace HttpContract

/-- A request, ready to be sent. -/
structure WireRequest where
  method : String
  url : String
  query : Pairs
  headers : Pairs
  body : Option String
deriving DecidableEq

/-- What a server answered. -/
structure WireResponse where
  status : Nat
  headers : Pairs
  body : String
deriving DecidableEq

/-- Why there is no answer. -/
inductive TransportError where
  | invalidRequest (reason : String)
  | timedOut
  | failed (reason : String)
deriving DecidableEq

/-- The text of an error. -/
def TransportError.message : TransportError → String
  | invalidRequest reason => "invalid request: " ++ reason
  | timedOut => "request timed out"
  | failed reason => "request failed: " ++ reason

/-- What comes of sending a request. -/
abbrev Reply := Except TransportError WireResponse

namespace WireRequest

/-- The texts that a named value stands for. -/
def pairsOf (name : String) : Json → Pairs
  | .array items => items.map fun item => (name, item.plainText)
  | .null => []
  | v => [(name, v.plainText)]

/-- Named values as pairs of texts. -/
def queryPairs (fields : List (String × Json)) : Pairs :=
  fields.flatMap fun f => pairsOf f.1 f.2

/-- A value as a form; what has no fields is written as its text. -/
def formText : Json → String
  | .object fields => Form.encode (queryPairs fields)
  | v => v.plainText

/-- The headers and the text of a body. A form is written if the headers declare one, a string is
sent as it is, and anything else is JSON, which is declared if nothing else is. -/
def encodeBody (headers : Pairs) (body : Json) : Pairs × Option String :=
  if body.isNull then (headers, none)
  else if Request.sendsForm headers then (headers, some (formText body))
  else match body with
    | .string s => (headers, some s)
    | v =>
      if (headers.header? "content-type").isNone then
        (headers ++ [("Content-Type", "application/json")], some v.text)
      else (headers, some v.text)

end WireRequest

/-- Headers as fields; a repeated name keeps its first place and its last value. -/
def Pairs.fields (headers : Pairs) : List (String × Json) :=
  headers.foldl (fun fields h => Json.setField h.1 (.string h.2) fields) []

end HttpContract
