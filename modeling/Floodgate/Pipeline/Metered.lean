/-
  Floodgate/Pipeline/Metered.lean
  ===============================
  **The stage that records latencies.**  A call is timed from its start until its
  answer is there; reading the body does not count.  Failures and server errors are
  recorded as errors; abandoned calls are not recorded.
-/
import Floodgate.Latency.Event
import Floodgate.Latency.Recorder
import Floodgate.Pipeline.Service

namespace Floodgate

structure MeterOptions where
  enabled : Bool
  badge : Badge

namespace Metered

inductive Call (κ : Type) where
  | passed (inner : κ)
  | timed (since : Instant) (inner : κ)

variable {π : Type}

def start (o : MeterOptions) (S : Service π) (now : Instant) (r : Http.Request) (p : π)
    (s : Layered Recorder S.State) : Step (Layered Recorder S.State) (Call S.Call) :=
  ((S.start now r p s.inner).under s.own).map (if o.enabled then .timed now else .passed)

def isError {β : Type} : Answer β → Bool
  | .ok r => r.head.status.isServerError
  | .error _ => true

def poll (o : MeterOptions) (S : Service π) (now : Instant) (c : Call S.Call)
    (s : Layered Recorder S.State) :
    Step (Layered Recorder S.State) (Progress (Call S.Call) S.Body) :=
  match c with
  | .passed inner => ((S.poll now inner s.inner).under s.own).map (.map .passed id)
  | .timed since inner =>
    let polled := S.poll now inner s.inner
    match polled.value with
    | .pending inner => ⟨.pending (.timed since inner), ⟨s.own, polled.state⟩, polled.happened⟩
    | .done answer =>
      let event : MeterEvent := ⟨now - since, isError answer⟩
      ⟨.done answer, ⟨s.own.record event.latency event.isError, polled.state⟩,
        polled.happened ++ [⟨o.badge, .meter event⟩]⟩

def service (o : MeterOptions) (S : Service π) : Service π where
  State := Layered Recorder S.State
  Call := Call S.Call
  Body := S.Body
  ready s := let r := S.ready s.inner; (r.1, ⟨s.own, r.2⟩)
  start := start o S
  poll := poll o S
  abandon c s :=
    match c with
    | .passed inner => ⟨s.own, S.abandon inner s.inner⟩
    | .timed _ inner => ⟨s.own, S.abandon inner s.inner⟩
  pull b s := (S.pull b s.inner).under s.own
  hint := S.hint
  ended := S.ended
  size := S.size
  pull_shrinks b s := S.pull_shrinks b s.inner

end Metered

end Floodgate
