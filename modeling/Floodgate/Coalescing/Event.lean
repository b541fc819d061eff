/-
  Floodgate/Coalescing/Event.lean
  ===============================
  **What happens at a coalescer.**  A request passes by, executes as a leader, or waits
  for one; leaders complete or are lost.
-/
import Floodgate.Observe.Event

namespace Floodgate

inductive CoalescingEvent where
  /-- A request is not coalesced. -/
  | bypassed
  /-- A request executes; with it so many requests do. -/
  | led (inFlight : Nat)
  | joined
  /-- A leader is done; so many requests have waited for it. -/
  | completed (waiters : Nat)
  /-- A waiting request learnt that its leader was given up. -/
  | leaderLost
deriving DecidableEq, Repr

namespace CoalescingEvent

def counted (name role : String) : Measurement :=
  .counter "coalesce_requests_total" [("coalesce", name), ("role", role)] 1

instance : Observed CoalescingEvent where
  lines name
    | .bypassed => []
    | .led _ => [⟨.debug, "Request executing as leader", [("coalesce", .text name)]⟩]
    | .joined => [⟨.debug, "Request coalesced as waiter", [("coalesce", .text name)]⟩]
    | .completed waiters =>
      [⟨.debug, "Leader completed", [("coalesce", .text name), ("waiters", .count waiters)]⟩]
    | .leaderLost => [⟨.debug, "Leader dropped before completing", [("coalesce", .text name)]⟩]
  measurements name
    | .bypassed => [counted name "bypass"]
    | .led inFlight =>
      [counted name "leader",
       .gauge "coalesce_in_flight" [("coalesce", name)] (Float.ofNat inFlight)]
    | .joined => [counted name "waiter"]
    | .completed _ => []
    | .leaderLost => []
  kind? _ := none

end CoalescingEvent

end Floodgate
