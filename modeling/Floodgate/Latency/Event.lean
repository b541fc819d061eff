/-
  Floodgate/Latency/Event.lean
  ============================
  **What happens at a meter.**  Every request that comes back is recorded.
-/
import Floodgate.Number.Quantity
import Floodgate.Observe.Event

namespace Floodgate

structure MeterEvent where
  latency : Duration
  isError : Bool
deriving DecidableEq, Repr

namespace MeterEvent

def secondsTaken (e : MeterEvent) : Float := Quantity.seconds e.latency

instance : Observed MeterEvent where
  lines name e :=
    [⟨.trace, "request recorded",
      [("recorder", .text name), ("latency_ms", .real (e.secondsTaken * 1000.0)),
       ("is_error", .flag e.isError)]⟩]
  measurements name e :=
    [.counter "edge_requests_total"
       [("recorder", name), ("outcome", if e.isError then "error" else "success")] 1,
     .sample "edge_request_duration_seconds" [("recorder", name)] e.secondsTaken]
  kind? _ := none

end MeterEvent

end Floodgate
