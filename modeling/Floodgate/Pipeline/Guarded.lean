/-
  Floodgate/Pipeline/Guarded.lean
  ===============================
  **The stage of the circuit breaker.**  A call that the circuit admits carries the
  generation it was admitted under.  When it ends, its outcome is reported to the
  circuit; when it is abandoned, its place is given back.
-/
import Floodgate.Circuit.Basic
import Floodgate.Circuit.Classifier
import Floodgate.Pipeline.Service

namespace Floodgate

structure BreakerOptions where
  enabled : Bool
  classifier : Classifier
  badge : Badge

namespace Guarded

inductive Call (κ : Type) where
  | passed (inner : κ)
  | rejected
  | admitted (generation : Generation) (inner : κ)

variable {π : Type}

def told (o : BreakerOptions) (es : List CircuitEvent) : List Happening :=
  o.badge.happenings .circuit es

/-- What the breaker does with a call, as a happening. -/
def noted (o : BreakerOptions) (e : BreakerEvent) : List Happening := [⟨o.badge, .breaker e⟩]

def start (o : BreakerOptions) (S : Service π) (now : Instant) (r : Http.Request) (p : π)
    (s : Layered Circuit S.State) : Step (Layered Circuit S.State) (Call S.Call) :=
  if o.enabled then
    let asked := s.own.acquire now
    match asked.1 with
    | some generation =>
      (((S.start now r p s.inner).under asked.2.1).map (.admitted generation)).after
        (told o asked.2.2 ++ noted o .letThrough)
    | none => ⟨.rejected, ⟨asked.2.1, s.inner⟩, told o asked.2.2 ++ noted o .turnedAway⟩
  else ((S.start now r p s.inner).under s.own).map .passed

def outcome {β : Type} : Answer β → Outcome
  | .ok r => .ok r.head.status
  | .error f => .error f

def poll (o : BreakerOptions) (S : Service π) (now : Instant) (c : Call S.Call)
    (s : Layered Circuit S.State) :
    Step (Layered Circuit S.State) (Progress (Call S.Call) S.Body) :=
  match c with
  | .passed inner => ((S.poll now inner s.inner).under s.own).map (.map .passed id)
  | .rejected => ⟨.done (.error (.circuitOpen o.badge.name)), s, []⟩
  | .admitted generation inner =>
    let polled := S.poll now inner s.inner
    match polled.value with
    | .pending inner =>
      ⟨.pending (.admitted generation inner), ⟨s.own, polled.state⟩, polled.happened⟩
    | .done answer =>
      let settled := s.own.settle now generation (o.classifier.isFailure (outcome answer))
      ⟨.done answer, ⟨settled.1, polled.state⟩, polled.happened ++ told o settled.2⟩

def abandon (S : Service π) (c : Call S.Call) (s : Layered Circuit S.State) :
    Layered Circuit S.State :=
  match c with
  | .passed inner => ⟨s.own, S.abandon inner s.inner⟩
  | .rejected => s
  | .admitted generation inner => ⟨s.own.release generation, S.abandon inner s.inner⟩

def service (o : BreakerOptions) (S : Service π) : Service π where
  State := Layered Circuit S.State
  Call := Call S.Call
  Body := S.Body
  ready s := let r := S.ready s.inner; (r.1, ⟨s.own, r.2⟩)
  start := start o S
  poll := poll o S
  abandon := abandon S
  pull b s := (S.pull b s.inner).under s.own
  hint := S.hint
  ended := S.ended
  size := S.size
  pull_shrinks b s := S.pull_shrinks b s.inner

end Guarded

end Floodgate
