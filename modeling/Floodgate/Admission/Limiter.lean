/-
  Floodgate/Admission/Limiter.lean
  ================================
  **Admission control for a stream of requests.**  A limiter is a controller with a
  load source and a sweeper.  A request starts the sweeper, lets the rate follow the
  load, and is then charged to its client.
-/
import Floodgate.Admission.Controller
import Floodgate.Admission.Event
import Floodgate.Admission.Sweeper
import Floodgate.Http.Request

namespace Floodgate

inductive ClientKey where
  | sender
  /-- The text of a header, or nobody in particular. -/
  | header (name : String)
deriving DecidableEq, Repr

def anonymousClient : String := "anonymous"

def ClientKey.client (k : ClientKey) (r : Http.Request) : String :=
  match k with
  | .sender => r.client
  | .header name =>
    match r.headers.firstText? (Http.fieldName name) with
    | some text => String.ofList text
    | none => anonymousClient

structure Limiter (α : Type) where
  controller : Controller α
  load : α
  sweepInterval : Duration
  sweeper : Sweeper

namespace Limiter

variable {α : Type} [Quantity α]

def refresh (l : Limiter α) (now : Instant) : Limiter α × List (AdmissionEvent α) :=
  let r := l.controller.adjust now l.load
  ({ l with controller := r.2 },
    match r.1 with
    | none => []
    | some change => [.rateAdjusted change.load change.previous change.current])

/-- A request of a client: whether it is admitted, and what happened. -/
def arrive (l : Limiter α) (client : String) (now : Instant) :
    Except Duration Unit × Limiter α × List (AdmissionEvent α) :=
  let started := { l with sweeper := l.sweeper.start }
  let refreshed := started.refresh now
  let charged := refreshed.1.controller.charge client now
  (charged.1, { refreshed.1 with controller := charged.2 },
    refreshed.2 ++
      match charged.1 with
      | .ok _ => [.admitted client]
      | .error wait => [.rejected client wait])

/-- Sweeps idle buckets; answers how many there were. -/
def sweep (l : Limiter α) (now : Instant) (background : Bool) :
    Nat × Limiter α × List (AdmissionEvent α) :=
  let swept := l.controller.sweep now
  let removed := l.controller.clients - swept.clients
  (removed, { l with controller := swept }, [.swept removed swept.clients background])

/-- The sweeper gets its turn. -/
def wake (l : Limiter α) (now : Instant) : Limiter α :=
  { l with sweeper := l.sweeper.wake l.sweepInterval now }

/-- Handles the tick at an instant, if it is this sweeper's and due. -/
def tick (l : Limiter α) (time : Instant) (now : Instant) : Limiter α × List (AdmissionEvent α) :=
  if l.sweeper.due? now = some time then
    let swept := l.sweep now true
    ({ swept.2.1 with sweeper := Sweeper.next time l.sweepInterval now }, swept.2.2)
  else (l, [])

end Limiter

end Floodgate
