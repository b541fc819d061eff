/-
  Floodgate/Coalescing/Signature.lean
  ===================================
  **When requests are identical.**  Requests that only read (`GET` and `HEAD`) are
  identical when they agree in method, path and query and in whether they accept
  gzip.  All other requests are unlike any other.
-/
import Floodgate.Http.Request

namespace Floodgate

structure Signature where
  method : String
  path : String
  query : Option String
  gzip : Bool
deriving DecidableEq, Repr

namespace Signature

/-- The method only reads. -/
def reads (method : String) : Bool := method == "GET" || method == "HEAD"

/-- The signature of a request, if it has one. -/
def ofRequest (r : Http.Request) : Option Signature :=
  if reads r.method then
    some ⟨r.method, r.target.path, r.target.query, Http.acceptsGzip r.headers⟩
  else none

end Signature

end Floodgate
