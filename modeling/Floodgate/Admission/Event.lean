/-
  Floodgate/Admission/Event.lean
  ==============================
  **What happens at admission control.**  Requests are admitted or rejected, the rate
  follows the load, and buckets that nobody uses are swept.
-/
import Floodgate.Observe.Event

namespace Floodgate

inductive AdmissionEvent (α : Type) where
  | admitted (client : String)
  /-- A client's request found no token; there is one after the wait. -/
  | rejected (client : String) (wait : Duration)
  | rateAdjusted (load previous current : α)
  /-- Idle buckets were swept, at somebody's request or in the background. -/
  | swept (removed remaining : Nat) (background : Bool)
deriving DecidableEq, Repr

namespace AdmissionEvent

def kind? {α : Type} : AdmissionEvent α → Option String
  | .admitted _ => some "admitted"
  | .rejected .. => some "rejected"
  | .rateAdjusted .. => some "rate_adjusted"
  | .swept .. => none

def counted (name outcome : String) : Measurement :=
  .counter "ratelimiter_calls_total" [("ratelimiter", name), ("outcome", outcome)] 1

def wordSize : Nat := 18446744073709551616

instance : Observed (AdmissionEvent Float) where
  lines name
    | .admitted client =>
      [⟨.trace, "request admitted", [("limiter", .text name), ("client", .text client)]⟩]
    | .rejected client wait =>
      [⟨.debug, "request rejected by admission control",
        [("limiter", .text name), ("client", .text client),
         ("retry_after_ms", .count (Duration.milliseconds wait % wordSize))]⟩]
    | .rateAdjusted load previous current =>
      [⟨.info, "adaptive admission rate changed",
        [("limiter", .text name), ("load", .real load), ("previous_rate", .real previous),
         ("current_rate", .real current)]⟩]
    | .swept removed remaining background =>
      if background && removed != 0 then
        [⟨.debug, "swept idle client buckets",
          [("removed", .count removed), ("remaining", .count remaining)]⟩]
      else []
  measurements name
    | .admitted _ => [counted name "admitted"]
    | .rejected .. => [counted name "rejected"]
    | .rateAdjusted _ _ current =>
      [.gauge "ratelimiter_effective_rate" [("ratelimiter", name)] current]
    | .swept _ remaining _ => [.gauge "ratelimiter_tracked_clients" [] (Float.ofNat remaining)]
  kind? := kind?

end AdmissionEvent

end Floodgate
