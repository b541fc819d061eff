/-
  Floodgate/Pipeline/Happening.lean
  =================================
  **What happens in a pipeline.**  Whatever happens happens in some stage, which has a
  name and listeners.  A pipeline tells what happened in order; log lines,
  measurements and calls of listeners are views of that.
-/
import Floodgate.Admission.Event
import Floodgate.Circuit.Breaker
import Floodgate.Circuit.Event
import Floodgate.Coalescing.Event
import Floodgate.Gzip.Totals
import Floodgate.Latency.Event
import Floodgate.Rejection

namespace Floodgate

inductive BuildEvent where
  /-- The rate was to follow the load, but there is no load source. -/
  | loadSourceMissing
  | built (rate : Float) (burst : Nat)

instance : Observed BuildEvent where
  lines name
    | .loadSourceMissing =>
      [⟨.warn, "adaptive admission requested without a load source; using the fixed rate",
        [("pipeline", .text name)]⟩]
    | .built rate burst =>
      [⟨.debug, "edge pipeline built",
        [("pipeline", .text name), ("rate", .real rate), ("burst", .count burst)]⟩]
  measurements _ _ := []
  kind? _ := none

inductive StageEvent where
  | admission (e : AdmissionEvent Float)
  | breaker (e : BreakerEvent)
  | circuit (e : CircuitEvent)
  | coalescing (e : CoalescingEvent)
  | compression (e : Gzip.CompressionEvent)
  | meter (e : MeterEvent)
  | rejection (e : Rejection)
  | build (e : BuildEvent)

instance : Observed StageEvent where
  lines name
    | .admission e => Observed.lines name e
    | .breaker e => Observed.lines name e
    | .circuit e => Observed.lines name e
    | .coalescing e => Observed.lines name e
    | .compression e => Observed.lines name e
    | .meter e => Observed.lines name e
    | .rejection e => Observed.lines name e
    | .build e => Observed.lines name e
  measurements name
    | .admission e => Observed.measurements name e
    | .breaker e => Observed.measurements name e
    | .circuit e => Observed.measurements name e
    | .coalescing e => Observed.measurements name e
    | .compression e => Observed.measurements name e
    | .meter e => Observed.measurements name e
    | .rejection e => Observed.measurements name e
    | .build e => Observed.measurements name e
  kind?
    | .admission e => Observed.kind? e
    | .breaker e => Observed.kind? e
    | .circuit e => Observed.kind? e
    | .coalescing e => Observed.kind? e
    | .compression e => Observed.kind? e
    | .meter e => Observed.kind? e
    | .rejection e => Observed.kind? e
    | .build e => Observed.kind? e

structure Badge where
  name : String
  listeners : List Listener
deriving DecidableEq, Repr

structure Happening where
  stage : Badge
  event : StageEvent

namespace Happening

def sighting (h : Happening) : Sighting :=
  (Occurrence.mk h.stage.name 0 h.event).sighting h.stage.listeners

end Happening

def Badge.happenings {ε : Type} (b : Badge) (kind : ε → StageEvent) (es : List ε) :
    List Happening :=
  es.map fun e => ⟨b, kind e⟩

end Floodgate
