/-
  Floodgate/Http/Response.lean
  ============================
  **Responses.**  A response has a head (status, protocol version, header fields and
  at most one extension, a note that travels with the response but is not sent) and
  a body of any type.
-/
import Floodgate.Http.Headers
import Floodgate.Json.Value

namespace Floodgate.Http

abbrev Status := Nat

def Status.isServerError (s : Status) : Bool := decide (500 ≤ s) && decide (s < 600)

def Status.isClientError (s : Status) : Bool := decide (400 ≤ s) && decide (s < 500)

structure Head where
  status : Status
  version : String
  headers : Headers
  extension : Option String
deriving DecidableEq, Repr

/-- A response with a body of type `β`. -/
structure Response (β : Type) where
  head : Head
  body : β
deriving DecidableEq, Repr

/-- The protocol version of responses that the pipeline makes itself. -/
def defaultVersion : String := "HTTP/1.1"

def Response.withBody {β γ : Type} (r : Response β) (body : γ) : Response γ := ⟨r.head, body⟩

/-- A response whose body is the text of a JSON value, members ordered by name. -/
def Response.json (status : Status) (v : Json.Value) : Response Bytes :=
  { head :=
      { status, version := defaultVersion, extension := none
        headers := [⟨"content-type", utf8 "application/json"⟩] }
    body := utf8 v.sorted.text }

end Floodgate.Http
