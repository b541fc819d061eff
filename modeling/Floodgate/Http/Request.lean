/-
  Floodgate/Http/Request.lean
  ===========================
  **Requests and who sent them.**  Of a request the pipeline looks at the method,
  the target, the headers and the addresses that the server attached to it.  The
  client of a request is the first address in `X-Forwarded-For`, or `X-Real-IP`, or
  the attached peer address, or the socket's; a proxy header that is blank or has
  no text counts as absent.
-/
import Floodgate.Http.Coding
import Floodgate.Http.Target
import Floodgate.Http.Address

namespace Floodgate.Http

/-- A request, without its body. -/
structure Request where
  method : String
  target : Target
  headers : Headers
  /-- The address that the accepting server noted for the connection. -/
  peer : Option Address
  /-- The plain socket address, where only that is known. -/
  socket : Option Address

def unknownClient : String := "unknown"

/-- A text without blanks at its ends, unless nothing is left. -/
def nonBlank? (cs : List Char) : Option String :=
  let t := Text.trim cs
  if t.isEmpty then none else some (String.ofList t)

/-- The first address of the forwarding chain. -/
def forwardedFor? (hs : Headers) : Option String :=
  match hs.firstText? "x-forwarded-for" with
  | none => none
  | some cs =>
    match Text.split ',' cs with
    | [] => none
    | first :: _ => nonBlank? first

def realIp? (hs : Headers) : Option String :=
  match hs.firstText? "x-real-ip" with
  | none => none
  | some cs => nonBlank? cs

/-- **The client that a request is charged to.** -/
def Request.client (r : Request) : String :=
  match forwardedFor? r.headers with
  | some ip => ip
  | none =>
    match realIp? r.headers with
    | some ip => ip
    | none =>
      match r.peer with
      | some a => a.text
      | none =>
        match r.socket with
        | some a => a.text
        | none => unknownClient

end Floodgate.Http
