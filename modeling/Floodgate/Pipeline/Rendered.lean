/-
  Floodgate/Pipeline/Rendered.lean
  ================================
  **The stage that renders failures.**  A call through this stage never fails: whatever
  the inner service fails with becomes a response.  A service that fails while it is
  asked whether it is ready is said to be ready; the failure is held and answers the
  next call, which does not reach the inner service.
-/
import Floodgate.Pipeline.Relayed

namespace Floodgate

namespace Rendered

open Http (Replay Response)

inductive Call (κ : Type) where
  | answered (r : Response Replay)
  | passed (inner : κ)

def badge : Badge := ⟨"", []⟩

def response (f : Failure) : Response Replay :=
  let r := (Rejection.ofFailure f).answer
  r.withBody (.ofBytes r.body)

def told (f : Failure) : List Happening := [⟨badge, .rejection (.ofFailure f)⟩]

variable {π : Type}

/-- Asks whether the inner service takes a request, unless a failure is held. -/
def ready (S : Service π) (s : Layered (Option Failure) S.State) :
    Readiness × Layered (Option Failure) S.State :=
  match s.own with
  | some f => (.ready, ⟨some f, s.inner⟩)
  | none =>
    let r := S.ready s.inner
    match r.1 with
    | .failed f => (.ready, ⟨some f, r.2⟩)
    | .ready => (.ready, ⟨none, r.2⟩)
    | .pending => (.pending, ⟨none, r.2⟩)

def start (S : Service π) (now : Instant) (r : Http.Request) (p : π)
    (s : Layered (Option Failure) S.State) :
    Step (Layered (Option Failure) S.State) (Call S.Call) :=
  match s.own with
  | some f => ⟨.answered (response f), ⟨none, s.inner⟩, told f⟩
  | none => ((S.start now r p s.inner).under none).map .passed

def poll (S : Service π) (now : Instant) (c : Call S.Call)
    (s : Layered (Option Failure) S.State) :
    Step (Layered (Option Failure) S.State) (Progress (Call S.Call) (Relayed S.Body)) :=
  match c with
  | .answered r => ⟨.done (.ok (r.withBody (.own r.body))), s, []⟩
  | .passed inner =>
    let polled := S.poll now inner s.inner
    match polled.value with
    | .done (.error f) =>
      let r := response f
      ⟨.done (.ok (r.withBody (.own r.body))), ⟨s.own, polled.state⟩, polled.happened ++ told f⟩
    | .done (.ok r) =>
      ⟨.done (.ok (r.withBody (.passed r.body))), ⟨s.own, polled.state⟩, polled.happened⟩
    | .pending inner => ⟨.pending (.passed inner), ⟨s.own, polled.state⟩, polled.happened⟩

def service (S : Service π) : Service π where
  State := Layered (Option Failure) S.State
  Call := Call S.Call
  Body := Relayed S.Body
  ready := ready S
  start := start S
  poll := poll S
  abandon c s :=
    match c with
    | .answered _ => s
    | .passed inner => ⟨s.own, S.abandon inner s.inner⟩
  pull := Relayed.pull S
  hint := Relayed.hint S
  ended := Relayed.ended S
  size := Relayed.size S
  pull_shrinks := Relayed.pull_shrinks S

end Rendered

end Floodgate
