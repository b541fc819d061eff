/-
  Floodgate/Circuit/Breaker.lean
  ==============================
  **What a circuit breaker does with a call.**  The circuit decides; the breaker notes
  in the log which calls it let through and counts those that it turned away.
-/
import Floodgate.Observe.Event

namespace Floodgate

inductive BreakerEvent where
  | letThrough
  | turnedAway
deriving DecidableEq, Repr

namespace BreakerEvent

instance : Observed BreakerEvent where
  lines name
    | .letThrough => [⟨.trace, "circuit breaker permitted call", [("breaker", .text name)]⟩]
    | .turnedAway =>
      [⟨.trace, "circuit breaker rejected call (circuit open)", [("breaker", .text name)]⟩]
  measurements name
    | .letThrough => []
    | .turnedAway =>
      [.counter "circuitbreaker_calls_total"
        [("circuitbreaker", name), ("outcome", "rejected")] 1]
  kind? _ := none

end BreakerEvent

end Floodgate
