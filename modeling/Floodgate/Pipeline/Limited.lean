/-
  Floodgate/Pipeline/Limited.lean
  ===============================
  **The stage of admission control.**  A request that finds a token goes on to the
  inner service; any other is rejected at once and never gets there.
-/
import Floodgate.Admission.Limiter
import Floodgate.Pipeline.Service

namespace Floodgate

structure LimiterOptions where
  enabled : Bool
  key : ClientKey
  badge : Badge

namespace Limited

inductive Call (κ : Type) where
  | rejected (f : Failure)
  | admitted (inner : κ)

variable {π : Type}

def told (o : LimiterOptions) (es : List (AdmissionEvent Float)) : List Happening :=
  o.badge.happenings .admission es

def start (o : LimiterOptions) (S : Service π) (now : Instant) (r : Http.Request) (p : π)
    (s : Layered (Limiter Float) S.State) : Step (Layered (Limiter Float) S.State) (Call S.Call) :=
  if o.enabled then
    let client := o.key.client r
    let arrived := s.own.arrive client now
    match arrived.1 with
    | .ok _ =>
      (((S.start now r p s.inner).under arrived.2.1).map .admitted).after (told o arrived.2.2)
    | .error wait =>
      ⟨.rejected (.rateLimited client (some wait)), ⟨arrived.2.1, s.inner⟩, told o arrived.2.2⟩
  else ((S.start now r p s.inner).under s.own).map .admitted

def poll (S : Service π) (now : Instant) (c : Call S.Call)
    (s : Layered (Limiter Float) S.State) :
    Step (Layered (Limiter Float) S.State) (Progress (Call S.Call) S.Body) :=
  match c with
  | .rejected f => ⟨.done (.error f), s, []⟩
  | .admitted inner => ((S.poll now inner s.inner).under s.own).map (.map .admitted id)

def service (o : LimiterOptions) (S : Service π) : Service π where
  State := Layered (Limiter Float) S.State
  Call := Call S.Call
  Body := S.Body
  ready s := let r := S.ready s.inner; (r.1, ⟨s.own, r.2⟩)
  start := start o S
  poll := poll S
  abandon c s :=
    match c with
    | .rejected _ => s
    | .admitted inner => ⟨s.own, S.abandon inner s.inner⟩
  pull b s := (S.pull b s.inner).under s.own
  hint := S.hint
  ended := S.ended
  size := S.size
  pull_shrinks b s := S.pull_shrinks b s.inner

end Limited

end Floodgate
