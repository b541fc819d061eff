/-
  Floodgate/Circuit/Event.lean
  ============================
  **What happens at a circuit breaker.**  A circuit changes its state, admits and
  refuses calls and takes note of outcomes.  Changes of state come before the event
  that caused them.
-/
import Floodgate.Observe.Event

namespace Floodgate

inductive CircuitState where
  | closed
  | opened
  /-- A few calls pass, as probes. -/
  | halfOpen
deriving DecidableEq, Repr, Inhabited

namespace CircuitState

def text : CircuitState → String
  | .closed => "Closed"
  | .opened => "Open"
  | .halfOpen => "HalfOpen"

/-- What the state means for the service behind the circuit. -/
def health : CircuitState → String
  | .closed => "healthy"
  | .halfOpen => "degraded"
  | .opened => "unhealthy"

def gauge : CircuitState → Float
  | .closed => 0.0
  | .opened => 1.0
  | .halfOpen => 2.0

end CircuitState

inductive CircuitEvent where
  | transition (before after : CircuitState)
  /-- A call was admitted; the state is the one it was admitted in. -/
  | callPermitted (state : CircuitState)
  | callRejected
  /-- A success was noted; the state is the one it was noted in. -/
  | succeeded (state : CircuitState)
  /-- A failure was noted; the state is the one it was noted in. -/
  | failed (state : CircuitState)
deriving DecidableEq, Repr

namespace CircuitEvent

def kind : CircuitEvent → String
  | .transition .. => "state_transition"
  | .callPermitted _ => "call_permitted"
  | .callRejected => "call_rejected"
  | .succeeded _ => "success_recorded"
  | .failed _ => "failure_recorded"

def counted (name outcome : String) : Measurement :=
  .counter "circuitbreaker_calls_total" [("circuitbreaker", name), ("outcome", outcome)] 1

instance : Observed CircuitEvent where
  lines name
    | .transition before after =>
      [⟨.info, "Circuit state transition",
        [("breaker", .text name), ("from", .text before.text), ("to", .text after.text)]⟩]
    | _ => []
  measurements name
    | .transition before after =>
      [.counter "circuitbreaker_transitions_total"
         [("circuitbreaker", name), ("from", before.text), ("to", after.text)] 1,
       .gauge "circuitbreaker_state" [("circuitbreaker", name)] after.gauge]
    | .succeeded _ => [counted name "success"]
    | .failed _ => [counted name "failure"]
    | _ => []
  kind? e := some e.kind

end CircuitEvent

end Floodgate
