import HttpContract.Request.Basic
import HttpContract.Text.Utf8

/-!
# Http.Message — requests and responses on the wire

Requests as they come, with bytes for the values of headers and for the body, and responses as they
are sent. Only what may stand in a message is sent.
-/

namespace HttpContract

/-- A request as it comes; the query is what follows the question mark. -/
structure HttpRequest where
  method : String := "GET"
  path : String := "/"
  query : Option String := none
  headers : List (String × List UInt8) := []
  body : List UInt8 := []
deriving DecidableEq

/-- A response as it is sent. -/
structure HttpResponse where
  status : Nat
  headers : Pairs := []
  body : String := ""
deriving DecidableEq

namespace Http

/-! ## Headers -/

/-- Whether a byte of a header's value can be shown. -/
def isVisible (b : UInt8) : Bool := (32 ≤ b && b < 127) || b = 9

/-- The text of a header's value, if all of it can be shown. -/
def visibleText? (value : List UInt8) : Option String :=
  if value.all isVisible then some (Text.Utf8.read value) else none

/-- Whether a character may stand in the value of a header that is sent. -/
def isValueChar (c : Char) : Bool := (32 ≤ c.toNat && c.toNat ≠ 127) || c = '\t'

/-- Whether a text may be sent as the value of a header. -/
def isValue (s : String) : Bool := s.toList.all isValueChar

/-- The marks that may stand in the name of a header. -/
def nameMarks : List Char :=
  ['!', '#', '$', '%', '&', '\'', '*', '+', '-', '.', '^', '_', '\x60', '|', '~']

/-- Whether a character may stand in the name of a header. -/
def isNameChar (c : Char) : Bool := c.isAlphanum || nameMarks.contains c

/-- Whether a text may be sent as the name of a header. -/
def isName (s : String) : Bool := !s.isEmpty && s.toList.all isNameChar

/-- The headers that may be sent, their names in small letters. -/
def sendable (headers : Pairs) : Pairs :=
  (headers.filter fun h => isName h.1 && isValue h.2).map fun h => (h.1.toLower, h.2)

/-- The first header of a name, if its value can be shown. -/
def header? (r : HttpRequest) (name : String) : Option String :=
  (r.headers.find? fun h => h.1.toLower = name).bind fun h => visibleText? h.2

/-! ## Requests to stubs -/

/-- A request as a contract sees it. Headers whose values cannot be shown are passed over. -/
def toRequest (r : HttpRequest) : Request where
  method := r.method.toUpper
  path := r.path
  query := Form.parse (r.query.getD "")
  headers := r.headers.filterMap fun h => (visibleText? h.2).map fun value => (h.1, value)
  body := Text.Utf8.read r.body

end Http

end HttpContract
